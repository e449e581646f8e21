import Http2.Hpack.Checked

/-! What hostile blocks cannot do to the decoder: the run of `decode` stays inside the block and the
machine words, its result inside the bound on header lists, and its table inside its size. -/
namespace Http2.Hpack

open Lib (Checked)
open Lib.Budget Lib.Checked

namespace Decoder

/-! ## What every decoder keeps -/

/-- The table is in order and no larger than the bound on updates, which is a machine word. -/
structure Bounded (d : Decoder) : Prop where
  valid : d.dynamicTable.Valid
  maxSize_le : d.dynamicTable.maxSize ≤ d.maxTableSize
  word : d.maxTableSize < 2 ^ 64

theorem decodeSizeUpdate_spec {d d' : Decoder} {data : Bytes} {n : Nat}
    (h : d.decodeSizeUpdate data = .ok (d', n)) :
    ∃ size ≤ d.maxTableSize, d' = { d with dynamicTable := d.dynamicTable.setMaxSize size } := by
  obtain ⟨⟨size, consumed⟩, _, h⟩ := bind_eq_ok h
  by_cases hgt : size > d.maxTableSize
  · simp [hgt, bind, Except.bind] at h
  · simp only [hgt, if_false] at h
    cases h
    exact ⟨size, Nat.le_of_not_gt hgt, rfl⟩

theorem decodeLiteralWith_sensitive {d : Decoder} {prefixBits : Nat} {sensitive : Bool}
    {data : Bytes} {r : HeaderField × Nat}
    (h : d.decodeLiteralWith prefixBits sensitive data = .ok r) : r.1.sensitive = sensitive := by
  obtain ⟨⟨index, consumed⟩, _, h⟩ := bind_eq_ok h
  simp only at h
  split at h
  · obtain ⟨_, _, h⟩ := bind_eq_ok h
    obtain ⟨_, _, h⟩ := bind_eq_ok h
    obtain ⟨_, _, h⟩ := bind_eq_ok h
    cases h
    rfl
  · obtain ⟨_, _, h⟩ := bind_eq_ok h
    obtain ⟨_, _, h⟩ := bind_eq_ok h
    obtain ⟨_, _, h⟩ := bind_eq_ok h
    cases h
    rfl

/-- An instruction leaves the decoder alone, inserts the field it returns, which is not sensitive,
or sets a permitted size. -/
theorem decodeStep_cases {d d' : Decoder} {seenHeader : Bool} {first : UInt8} {data : Bytes}
    {header : Option HeaderField} {n : Nat}
    (h : d.decodeStep seenHeader first data = .ok (header, n, d')) :
    d' = d ∨
    (∃ name value, header = some ⟨name, value, false⟩ ∧
      d' = { d with dynamicTable := d.dynamicTable.insertValidated name value }) ∨
    header = none ∧ seenHeader = false ∧
      ∃ size ≤ d.maxTableSize, d' = { d with dynamicTable := d.dynamicTable.setMaxSize size } := by
  unfold decodeStep at h
  split at h
  · obtain ⟨q, _, h⟩ := bind_eq_ok h
    cases h
    exact .inl rfl
  split at h
  · obtain ⟨⟨⟨name, value, sensitive⟩, consumed⟩, hq, h⟩ := bind_eq_ok h
    obtain rfl : sensitive = false := decodeLiteralWith_sensitive hq
    cases h
    exact .inr (.inl ⟨name, value, rfl, rfl⟩)
  split at h
  · cases seenHeader with
    | true => simp [bind, Except.bind] at h
    | false =>
      obtain ⟨⟨e, consumed⟩, hq, h⟩ := bind_eq_ok h
      cases h
      exact .inr (.inr ⟨rfl, rfl, decodeSizeUpdate_spec hq⟩)
  split at h
  · obtain ⟨q, _, h⟩ := bind_eq_ok h
    cases h
    exact .inl rfl
  · obtain ⟨q, _, h⟩ := bind_eq_ok h
    cases h
    exact .inl rfl

theorem decodeStep_bounded {d d' : Decoder} {seenHeader : Bool} {first : UInt8} {data : Bytes}
    {header : Option HeaderField} {n : Nat} (hd : d.Bounded)
    (h : d.decodeStep seenHeader first data = .ok (header, n, d')) :
    d'.Bounded ∧ d'.maxTableSize = d.maxTableSize ∧
      d'.maxHeaderListSize = d.maxHeaderListSize := by
  rcases decodeStep_cases h with rfl | ⟨name, value, _, rfl⟩ | ⟨_, _, size, hsize, rfl⟩
  · exact ⟨hd, rfl, rfl⟩
  · refine ⟨⟨DynamicTable.insertEntry_valid hd.valid rfl, ?_, hd.word⟩, rfl, rfl⟩
    show (d.dynamicTable.insertEntry _).maxSize ≤ _
    rw [DynamicTable.insertEntry_maxSize]
    exact hd.maxSize_le
  · exact ⟨⟨DynamicTable.setMaxSize_valid hd.valid size, hsize, hd.word⟩, rfl, rfl⟩

/-! ## The turns of a call -/

/-- The size `decode` counts for the fields so far; its sums saturate. -/
def countedSize (headers : List HeaderField) : Nat :=
  min (total HeaderField.size headers) (2 ^ 64 - 1)

/-- The turns of `d.decode data`: what is left of the block, the decoder, and the fields so far. -/
inductive Visits (d : Decoder) (data : Bytes) : Bytes → Decoder → List HeaderField → Prop
  | start : Visits d data data d []
  | update {first : UInt8} {rest : Bytes} {e e' : Decoder} {headers : List HeaderField}
      {consumed : Nat} :
      Visits d data (first :: rest) e headers →
      e.decodeStep (!headers.isEmpty) first (first :: rest) = .ok (none, consumed, e') →
      Visits d data ((first :: rest).drop consumed) e' headers
  | field {first : UInt8} {rest : Bytes} {e e' : Decoder} {headers : List HeaderField}
      {header : HeaderField} {consumed : Nat} :
      Visits d data (first :: rest) e headers →
      e.decodeStep (!headers.isEmpty) first (first :: rest) = .ok (some header, consumed, e') →
      e'.exceedsListSize (countedSize (headers ++ [header])) = false →
      Visits d data ((first :: rest).drop consumed) e' (headers ++ [header])

theorem countedSize_concat (headers : List HeaderField) (header : HeaderField) :
    min (countedSize headers + header.size) (2 ^ 64 - 1) = countedSize (headers ++ [header]) := by
  simp only [countedSize, total_append, total_cons, total_nil]
  omega

/-- A result with the fields decoded before it. -/
def after (headers : List HeaderField) (r : Except Error (List HeaderField) × Decoder) :
    Except Error (List HeaderField) × Decoder :=
  match r with
  | (.ok rest, d) => (.ok (headers ++ rest), d)
  | (.error e, d) => (.error e, d)

theorem after_after (headers : List HeaderField) (header : HeaderField)
    (r : Except Error (List HeaderField) × Decoder) :
    after headers (after [header] r) = after (headers ++ [header]) r := by
  obtain ⟨r, d⟩ := r
  cases r with
  | error e => rfl
  | ok rest => simp [after]

theorem after_nil (r : Except Error (List HeaderField) × Decoder) : after [] r = r := by
  obtain ⟨r, d⟩ := r
  cases r <;> rfl

section
variable {e e' : Decoder} {first : UInt8} {rest : Bytes} {seenHeader : Bool} {consumed : Nat}

theorem drop_shorter {header : Option HeaderField}
    (h : e.decodeStep seenHeader first (first :: rest) = .ok (header, consumed, e')) :
    ((first :: rest).drop consumed).length ≤ rest.length := by
  have hpos : 0 < consumed := decodeStep_consumed h
  simp only [List.length_drop, List.length_cons]
  omega

/-- The loop after a size update. -/
theorem decodeLoop_none (listSize : Nat)
    (h : e.decodeStep seenHeader first (first :: rest) = .ok (none, consumed, e')) :
    decodeLoop (first :: rest).length e (first :: rest) seenHeader listSize =
      decodeLoop ((first :: rest).drop consumed).length e' ((first :: rest).drop consumed)
        seenHeader listSize := by
  have hle := drop_shorter h
  rw [List.length_cons, decodeLoop, h]
  exact decodeLoop_fuel _ _ hle (Nat.le_refl _)

/-- The loop after a field that the bound admits. -/
theorem decodeLoop_some {listSize : Nat} {header : HeaderField}
    (h : e.decodeStep seenHeader first (first :: rest) = .ok (some header, consumed, e'))
    (hsize : e'.exceedsListSize (min (listSize + header.size) (2 ^ 64 - 1)) = false) :
    decodeLoop (first :: rest).length e (first :: rest) seenHeader listSize =
      after [header] (decodeLoop ((first :: rest).drop consumed).length e'
        ((first :: rest).drop consumed) true (min (listSize + header.size) (2 ^ 64 - 1))) := by
  have hle := drop_shorter h
  rw [List.length_cons, decodeLoop, h]
  simp only [hsize, Bool.false_eq_true, if_false]
  rw [decodeLoop_fuel true _ hle (Nat.le_refl _)]
  generalize decodeLoop _ e' _ true _ = r
  obtain ⟨r, d⟩ := r
  cases r <;> rfl

end

/-- The call ends as the loop does from any of its turns. -/
theorem Visits.decode_eq {d e : Decoder} {data rest : Bytes} {headers : List HeaderField}
    (h : Visits d data rest e headers) :
    d.decode data = after headers
      (decodeLoop rest.length e rest (!headers.isEmpty) (countedSize headers)) := by
  induction h with
  | start =>
    rw [after_nil]
    rfl
  | update _ hstep ih => rw [ih, decodeLoop_none _ hstep]
  | @field first rest e e' headers header consumed _ hstep hsize ih =>
    rw [← countedSize_concat] at hsize
    have hne : (headers ++ [header]).isEmpty = false := by simp
    rw [ih, decodeLoop_some hstep hsize, after_after, countedSize_concat, hne, Bool.not_false]

/-- What is left of the block at a turn is its end. -/
theorem Visits.suffix {d e : Decoder} {data rest : Bytes} {headers : List HeaderField}
    (h : Visits d data rest e headers) : rest <:+ data := by
  induction h with
  | start => exact List.suffix_refl _
  | update _ _ ih => exact (List.drop_suffix _ _).trans ih
  | field _ _ _ ih => exact (List.drop_suffix _ _).trans ih

theorem Visits.bounded {d e : Decoder} {data rest : Bytes} {headers : List HeaderField}
    (hd : d.Bounded) (h : Visits d data rest e headers) :
    e.Bounded ∧ e.maxTableSize = d.maxTableSize ∧ e.maxHeaderListSize = d.maxHeaderListSize := by
  induction h with
  | start => exact ⟨hd, rfl, rfl⟩
  | update _ hstep ih =>
    obtain ⟨hb, ht, hl⟩ := decodeStep_bounded ih.1 hstep
    exact ⟨hb, ht.trans ih.2.1, hl.trans ih.2.2⟩
  | field _ hstep _ ih =>
    obtain ⟨hb, ht, hl⟩ := decodeStep_bounded ih.1 hstep
    exact ⟨hb, ht.trans ih.2.1, hl.trans ih.2.2⟩

/-- The fields of a turn respect the bound. -/
theorem Visits.listSize {d e : Decoder} {data rest : Bytes} {headers : List HeaderField}
    (hd : d.Bounded) (h : Visits d data rest e headers) {max : Nat}
    (hmax : d.maxHeaderListSize = some max) (hne : headers ≠ []) : countedSize headers ≤ max := by
  induction h with
  | start => contradiction
  | update _ _ ih => exact ih hne
  | field hv hstep hsize ih =>
    have hl := (decodeStep_bounded (hv.bounded hd).1 hstep).2.2
    rw [exceedsListSize, hl, (hv.bounded hd).2.2, hmax] at hsize
    simpa using hsize

/-- A call ends at one of its turns: with the block used up, at an instruction that fails, or at a
field too many. -/
theorem exists_last (d : Decoder) (data : Bytes) {rest : Bytes} {e : Decoder}
    {headers : List HeaderField} (h : Visits d data rest e headers) :
    (∃ e' headers', Visits d data [] e' headers' ∧ d.decode data = (.ok headers', e')) ∨
    (∃ first tail e' headers' err, Visits d data (first :: tail) e' headers' ∧
      e'.decodeStep (!headers'.isEmpty) first (first :: tail) = .error err ∧
      d.decode data = (.error err, e')) ∨
    ∃ first tail e' headers' header consumed e'',
      Visits d data (first :: tail) e' headers' ∧
      e'.decodeStep (!headers'.isEmpty) first (first :: tail) = .ok (some header, consumed, e'') ∧
      e''.exceedsListSize (countedSize (headers' ++ [header])) = true ∧
      d.decode data =
        (.error (.hpackError "decoded header list size exceeds SETTINGS_MAX_HEADER_LIST_SIZE"),
          e'') := by
  induction hn : rest.length using Nat.strong_induction_on generalizing rest e headers with
  | _ n ih =>
    cases rest with
    | nil =>
      refine .inl ⟨e, headers, h, ?_⟩
      rw [h.decode_eq]
      simp [decodeLoop, after]
    | cons first tail =>
      subst hn
      cases hstep : e.decodeStep (!headers.isEmpty) first (first :: tail) with
      | error err =>
        refine .inr (.inl ⟨first, tail, e, headers, err, h, hstep, ?_⟩)
        rw [h.decode_eq, List.length_cons, decodeLoop, hstep]
        rfl
      | ok r =>
        obtain ⟨header, consumed, e'⟩ := r
        have hlt : ((first :: tail).drop consumed).length < (first :: tail).length :=
          Nat.lt_succ_of_le (drop_shorter hstep)
        cases header with
        | none => exact ih _ hlt (h.update hstep) rfl
        | some header =>
          cases hsize : e'.exceedsListSize (countedSize (headers ++ [header])) with
          | false => exact ih _ hlt (h.field hstep hsize) rfl
          | true =>
            refine .inr (.inr ⟨first, tail, e, headers, header, consumed, e', h, hstep, hsize, ?_⟩)
            rw [h.decode_eq, List.length_cons, decodeLoop, hstep]
            simp only [countedSize_concat, hsize, if_true]
            rfl

/-! ## Every reachable decoder -/

/-- The decoders a program can hold. A failed `decode` keeps what it did to the table. -/
inductive Reachable : Decoder → Prop
  | new {maxTableSize : Nat} (h : maxTableSize < 2 ^ 64) : Reachable (new maxTableSize)
  | setMaxTableSize {d : Decoder} {maxSize : Nat} (hd : Reachable d) (h : maxSize < 2 ^ 64) :
      Reachable (d.setMaxTableSize maxSize)
  | setMaxHeaderListSize {d : Decoder} (maxSize : Option Nat) (hd : Reachable d) :
      Reachable (d.setMaxHeaderListSize maxSize)
  | decode {d : Decoder} (data : Bytes) (hd : Reachable d) : Reachable (d.decode data).2

theorem decode_keeps {d : Decoder} (hd : d.Bounded) (data : Bytes) :
    (d.decode data).2.Bounded ∧ (d.decode data).2.maxTableSize = d.maxTableSize := by
  rcases exists_last d data .start with ⟨e, headers, hv, heq⟩ | ⟨_, _, e, _, err, hv, _, heq⟩ |
    ⟨_, _, e, _, header, _, e', hv, hstep, _, heq⟩
  · rw [heq]
    exact ⟨(hv.bounded hd).1, (hv.bounded hd).2.1⟩
  · rw [heq]
    exact ⟨(hv.bounded hd).1, (hv.bounded hd).2.1⟩
  · rw [heq]
    obtain ⟨hb, ht, _⟩ := decodeStep_bounded (hv.bounded hd).1 hstep
    exact ⟨hb, ht.trans (hv.bounded hd).2.1⟩

theorem Reachable.bounded {d : Decoder} (h : Reachable d) : d.Bounded := by
  induction h with
  | new h => exact ⟨DynamicTable.new_valid _, Nat.le_refl _, h⟩
  | setMaxTableSize _ h ih =>
    exact ⟨DynamicTable.setMaxSize_valid ih.valid _, Nat.le_refl _, h⟩
  | setMaxHeaderListSize _ _ ih => exact ⟨ih.valid, ih.maxSize_le, ih.word⟩
  | decode data _ ih => exact (decode_keeps ih data).1

/-! ## The memory of a call -/

/-- At least the memory that a field takes up: its octets and two vectors of three words each. -/
def memory (f : HeaderField) : Nat := f.name.length + f.value.length + 2 * 24

/-- The call runs in a 64-bit address space, which the fields alive at once fit into: those of the
table, those decoded before, and the one just decoded. -/
def Addressable (d : Decoder) (data : Bytes) : Prop :=
  ∀ first rest e headers header consumed e', Visits d data (first :: rest) e headers →
    e.decodeStep (!headers.isEmpty) first (first :: rest) = .ok (some header, consumed, e') →
    total memory (e.dynamicTable.entries ++ headers ++ [header]) ≤ 2 ^ 64

theorem total_size_le (l : List HeaderField) : total HeaderField.size l ≤ total memory l := by
  induction l with
  | nil => exact Nat.le_refl _
  | cons f l ih =>
    simp only [total_cons, HeaderField.size, memory]
    omega

/-- The sizes that are summed up never reach `2 ^ 64`. -/
theorem Addressable.lt {d e e' : Decoder} {data rest : Bytes} {first : UInt8}
    {headers : List HeaderField} {header : HeaderField} {consumed : Nat}
    (hmem : Addressable d data) (hd : d.Bounded) (hv : Visits d data (first :: rest) e headers)
    (hstep : e.decodeStep (!headers.isEmpty) first (first :: rest) =
      .ok (some header, consumed, e')) :
    e.dynamicTable.size + header.size < 2 ^ 64 ∧
      total HeaderField.size (headers ++ [header]) < 2 ^ 64 := by
  have h := hmem _ _ _ _ _ _ _ hv hstep
  have htable := total_size_le e.dynamicTable.entries
  have hheaders := total_size_le headers
  have hsize := (hv.bounded hd).1.valid.size_eq
  simp only [total_append, total_cons, total_nil, memory, HeaderField.size] at *
  omega

theorem Visits.total_lt {d e : Decoder} {data rest : Bytes} {headers : List HeaderField}
    (hmem : Addressable d data) (hd : d.Bounded) (hv : Visits d data rest e headers) :
    total HeaderField.size headers < 2 ^ 64 := by
  induction hv with
  | start => exact Nat.two_pow_pos 64
  | update _ _ ih => exact ih
  | field hv hstep _ _ => exact (hmem.lt hd hv hstep).2

theorem decodeLoopChecked_eq {d : Decoder} {data : Bytes} (hd : d.Bounded)
    (hdata : data.length < 2 ^ 63) (hmem : Addressable d data) {fuel offset : Nat} {e : Decoder}
    {headers : List HeaderField} (hv : Visits d data (data.drop offset) e headers)
    (hoffset : offset ≤ data.length) (hfuel : data.length ≤ offset + fuel) :
    decodeLoopChecked data fuel e offset (!headers.isEmpty) (countedSize headers) =
      some (decodeLoop (data.drop offset).length e (data.drop offset) (!headers.isEmpty)
        (countedSize headers)) := by
  induction fuel generalizing offset e headers with
  | zero =>
    have hend : data.length ≤ offset := by omega
    rw [decodeLoopChecked, if_neg (Nat.not_lt.2 hend), List.drop_eq_nil_of_le hend]
    rfl
  | succ fuel ih =>
    rw [decodeLoopChecked]
    split
    · rename_i hlt
      have hcons := List.drop_eq_getElem_cons hlt
      have hb := (hv.bounded hd).1
      have hmax : e.dynamicTable.maxSize < 2 ^ 64 := Nat.lt_of_le_of_lt hb.maxSize_le hb.word
      have hroom : e.Room (!headers.isEmpty) data[offset] (data.drop offset) := by
        intro header consumed e' hstep
        rw [hcons] at hv hstep
        exact (hmem.lt hd hv hstep).1
      rw [List.getElem?_eq_getElem hlt, sliceFrom_eq hoffset]
      simp only [Option.bind_eq_bind, Option.bind_some, ok_bind]
      rw [decodeStepChecked_eq (by simp; omega) hb.valid hmax hroom, run_lift, Option.bind_some]
      cases hstep : e.decodeStep (!headers.isEmpty) data[offset] (data.drop offset) with
      | error err =>
        simp only
        rw [hcons] at hstep ⊢
        rw [List.length_cons, decodeLoop, hstep]
        rfl
      | ok r =>
        obtain ⟨header, consumed, e'⟩ := r
        have hpos : 0 < consumed := decodeStep_consumed hstep
        have hle : consumed ≤ (data.drop offset).length := decodeStep_bounds hstep
        have hdrop : (data[offset] :: data.drop (offset + 1)).drop consumed =
            data.drop (offset + consumed) := by
          rw [← hcons, List.drop_drop]
        rw [List.length_drop] at hle
        simp only
        rw [add_eq (by omega), run_lift, Option.bind_some]
        rw [hcons] at hv hstep
        cases header with
        | none =>
          have hv' := hv.update hstep
          rw [hdrop] at hv'
          rw [hcons, decodeLoop_none _ hstep, hdrop]
          exact ih hv' (by omega) (by omega)
        | some header =>
          have hsum := (hmem.lt hd hv hstep).1
          simp only
          rw [HeaderField.sizeChecked_eq (by omega), run_lift, Option.bind_some]
          simp only [countedSize_concat]
          cases hsize : e'.exceedsListSize (countedSize (headers ++ [header])) with
          | true =>
            rw [if_pos rfl, hcons, List.length_cons, decodeLoop, hstep]
            simp only [countedSize_concat, hsize, if_true]
            rfl
          | false =>
            have hv' := hv.field hstep hsize
            rw [hdrop] at hv'
            have hne : (headers ++ [header]).isEmpty = false := by simp
            have hrun := ih hv' (by omega) (by omega)
            rw [hne, Bool.not_false] at hrun
            rw [← countedSize_concat] at hsize
            rw [if_neg (by decide), hrun, hcons, decodeLoop_some hstep hsize, hdrop,
              countedSize_concat]
            generalize decodeLoop _ e' _ true _ = r
            obtain ⟨r, d'⟩ := r
            cases r <;> rfl
    · rename_i hend
      rw [List.drop_eq_nil_of_le (Nat.le_of_not_lt hend)]
      rfl

theorem decodeChecked_eq {d : Decoder} {data : Bytes} (hd : d.Bounded)
    (hdata : data.length < 2 ^ 63) (hmem : Addressable d data) :
    d.decodeChecked data = some (d.decode data) := by
  have hstart : Visits d data (data.drop 0) d [] := .start
  exact decodeLoopChecked_eq hd hdata hmem hstart (Nat.zero_le _) (by omega)

/-! ## Size updates out of place -/

/-- The first octet of a dynamic table size update. -/
def isSizeUpdate (first : UInt8) : Bool :=
  first &&& 0x80 = 0 && first &&& 0x40 = 0 && first &&& 0x20 ≠ 0

theorem decodeStep_sizeUpdate_late {d : Decoder} {first : UInt8} (data : Bytes)
    (h : isSizeUpdate first = true) : ∃ err, d.decodeStep true first data = .error err := by
  simp only [isSizeUpdate, Bool.and_eq_true, decide_eq_true_eq] at h
  obtain ⟨⟨h80, h40⟩, h20⟩ := h
  rw [decodeStep, if_neg (not_not.2 h80), if_neg (not_not.2 h40), if_pos h20, if_pos rfl]
  exact ⟨_, rfl⟩

theorem decodeStep_sizeUpdate_large {d : Decoder} {seenHeader : Bool} {first : UInt8} {data : Bytes}
    {size n : Nat} (h : isSizeUpdate first = true) (hint : Integer.decode data 5 = .ok (size, n))
    (hlarge : d.maxTableSize < size) :
    ∃ err, d.decodeStep seenHeader first data = .error err := by
  cases seenHeader with
  | true => exact decodeStep_sizeUpdate_late data h
  | false =>
    simp only [isSizeUpdate, Bool.and_eq_true, decide_eq_true_eq] at h
    obtain ⟨⟨h80, h40⟩, h20⟩ := h
    rw [decodeStep, if_neg (not_not.2 h80), if_neg (not_not.2 h40), if_pos h20,
      if_neg (by decide), decodeSizeUpdate, hint]
    simp only [bind, Except.bind]
    rw [if_pos hlarge]
    exact ⟨_, rfl⟩

/-- A failed instruction fails the call. -/
theorem Visits.error {d e : Decoder} {data rest : Bytes} {first : UInt8}
    {headers : List HeaderField} (hv : Visits d data (first :: rest) e headers) {err : Error}
    (h : e.decodeStep (!headers.isEmpty) first (first :: rest) = .error err) :
    (d.decode data).1 = .error err := by
  rw [hv.decode_eq, List.length_cons, decodeLoop, h]
  rfl

/-- Decoding is total and bounded from every reachable decoder on every block: the checked run
does not panic, every instruction takes octets of the block, the result respects the bound on
header lists, the table is in order afterwards even if the block fails, and size updates after a
field or above the bound fail it. -/
theorem decode_bounded {d : Decoder} (hd : Reachable d) {data : Bytes}
    (hdata : data.length ≤ isizeMax) (hmem : Addressable d data) :
    d.decodeChecked data = some (d.decode data) ∧
    (∀ first rest e headers r, Visits d data (first :: rest) e headers →
      e.decodeStep (!headers.isEmpty) first (first :: rest) = .ok r →
      0 < r.2.1 ∧ r.2.1 ≤ (first :: rest).length) ∧
    (∀ headers d' max, d.decode data = (.ok headers, d') → d.maxHeaderListSize = some max →
      total HeaderField.size headers ≤ max) ∧
    ((d.decode data).2.dynamicTable.size =
        total HeaderField.size (d.decode data).2.dynamicTable.entries ∧
      (d.decode data).2.dynamicTable.size ≤ (d.decode data).2.dynamicTable.maxSize ∧
      (d.decode data).2.dynamicTable.maxSize ≤ (d.decode data).2.maxTableSize ∧
      (d.decode data).2.maxTableSize = d.maxTableSize) ∧
    ∀ first rest e headers, Visits d data (first :: rest) e headers → isSizeUpdate first = true →
      (headers ≠ [] ∨ ∃ size n, Integer.decode (first :: rest) 5 = .ok (size, n) ∧
        d.maxTableSize < size) →
      ∃ err, (d.decode data).1 = .error err := by
  have hb := hd.bounded
  have h63 : data.length < 2 ^ 63 := Nat.lt_of_le_of_lt hdata (by decide)
  obtain ⟨hkept, htable⟩ := decode_keeps hb data
  refine ⟨decodeChecked_eq hb h63 hmem, ?_, ?_, ?_, ?_⟩
  · intro first rest e headers r _ hstep
    exact ⟨decodeStep_consumed hstep, decodeStep_bounds hstep⟩
  · intro headers d' max hok hmax
    rcases exists_last d data .start with ⟨e, headers', hv, heq⟩ | ⟨_, _, _, _, _, _, _, heq⟩ |
      ⟨_, _, _, _, _, _, _, _, _, _, heq⟩
    · rw [hok] at heq
      cases heq
      by_cases hne : headers = []
      · subst hne
        exact Nat.zero_le _
      · have hcounted := hv.listSize hb hmax hne
        have hlt := hv.total_lt hmem hb
        unfold countedSize at hcounted
        omega
    · rw [hok] at heq
      cases heq
    · rw [hok] at heq
      cases heq
  · exact ⟨hkept.valid.size_eq, hkept.valid.size_le, hkept.maxSize_le, htable⟩
  · intro first rest e headers hv hupdate hbad
    have hstep : ∃ err, e.decodeStep (!headers.isEmpty) first (first :: rest) = .error err := by
      rcases hbad with hne | ⟨size, n, hint, hlarge⟩
      · have hseen : (!headers.isEmpty) = true := by simpa using hne
        rw [hseen]
        exact decodeStep_sizeUpdate_late _ hupdate
      · exact decodeStep_sizeUpdate_large hupdate hint (by rw [(hv.bounded hb).2.1]; exact hlarge)
    obtain ⟨err, hstep⟩ := hstep
    exact ⟨err, hv.error hstep⟩

/-- A run over the block that counts the octets of the fields alive after each turn. -/
def fits (fuel : Nat) (e : Decoder) (block : Bytes) (headers : List HeaderField) : Bool :=
  match fuel, block with
  | _, [] => true
  | 0, _ :: _ => false
  | fuel + 1, first :: rest =>
    match e.decodeStep (!headers.isEmpty) first (first :: rest) with
    | .error _ => true
    | .ok (none, consumed, e') => fits fuel e' ((first :: rest).drop consumed) headers
    | .ok (some header, consumed, e') =>
      decide (total memory (e.dynamicTable.entries ++ headers ++ [header]) ≤ 2 ^ 64) &&
        fits fuel e' ((first :: rest).drop consumed) (headers ++ [header])

theorem Visits.fits {d e : Decoder} {data rest : Bytes} {headers : List HeaderField} {fuel : Nat}
    (hv : Visits d data rest e headers) (h : d.fits fuel data [] = true) :
    ∃ fuel', e.fits fuel' rest headers = true := by
  induction hv with
  | start => exact ⟨fuel, h⟩
  | update _ hstep ih =>
    obtain ⟨fuel', hfits⟩ := ih
    cases fuel' with
    | zero => cases hfits
    | succ n =>
      rw [Decoder.fits, hstep] at hfits
      exact ⟨n, hfits⟩
  | field _ hstep _ ih =>
    obtain ⟨fuel', hfits⟩ := ih
    cases fuel' with
    | zero => cases hfits
    | succ n =>
      rw [Decoder.fits, hstep] at hfits
      exact ⟨n, (Bool.and_eq_true_iff.1 hfits).2⟩

theorem addressable_of_fits {d : Decoder} {data : Bytes} (fuel : Nat)
    (h : d.fits fuel data [] = true) : Addressable d data := by
  intro first rest e headers header consumed e' hv hstep
  obtain ⟨fuel', hfits⟩ := hv.fits h
  cases fuel' with
  | zero => cases hfits
  | succ n =>
    rw [fits, hstep] at hfits
    exact of_decide_eq_true (Bool.and_eq_true_iff.1 hfits).1

/-- A decoder with a bound on header lists that has kept `:authority: a`. -/
def usedDecoder : Decoder :=
  (((new 4096).setMaxHeaderListSize (some 16384)).decode [0x82, 0x41, 0x01, 0x61]).2

/-- A size update, a field of each table, and one that is kept. -/
def mixedBlock : Bytes := [0x3f, 0xe1, 0x1f, 0x82, 0xbe, 0x40, 0x01, 0x78, 0x01, 0x79]

theorem decode_bounded_mixed :
    usedDecoder.decodeChecked mixedBlock = some (usedDecoder.decode mixedBlock) ∧
      (usedDecoder.decode mixedBlock).1 = .ok [⟨ascii ":method", ascii "GET", false⟩,
        ⟨ascii ":authority", ascii "a", false⟩, ⟨ascii "x", ascii "y", false⟩] ∧
      total HeaderField.size [⟨ascii ":method", ascii "GET", false⟩,
        ⟨ascii ":authority", ascii "a", false⟩, ⟨ascii "x", ascii "y", false⟩] ≤ 16384 ∧
      (usedDecoder.decode mixedBlock).2.dynamicTable.entries =
        [⟨ascii "x", ascii "y", false⟩, ⟨ascii ":authority", ascii "a", false⟩] ∧
      (usedDecoder.decode mixedBlock).2.dynamicTable.size ≤
        (usedDecoder.decode mixedBlock).2.dynamicTable.maxSize := by
  have hreachable : Reachable usedDecoder := (Reachable.new (by decide)).setMaxHeaderListSize _ |>.decode _
  have hmem : Addressable usedDecoder mixedBlock :=
    addressable_of_fits 10 (by decide +kernel)
  have hfields : (usedDecoder.decode mixedBlock).1 = .ok [⟨ascii ":method", ascii "GET", false⟩,
      ⟨ascii ":authority", ascii "a", false⟩, ⟨ascii "x", ascii "y", false⟩] := by decide +kernel
  obtain ⟨hchecked, _, hlist, ⟨_, hsize, _⟩, _⟩ := decode_bounded hreachable (by decide) hmem
  exact ⟨hchecked, hfields, hlist _ _ 16384 (Prod.ext hfields rfl) (by decide +kernel),
    by decide +kernel, hsize⟩

end Decoder

end Http2.Hpack
