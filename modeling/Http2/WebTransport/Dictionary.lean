import Http2.WebTransport.Init

/-! What `WtInit::parse` makes of a header value: it is defined on the dictionaries whose known members
are integers from 0 on, and nothing but the last of these of each name counts. -/
namespace Http2.WebTransport

open Lib Lib.Scanner StructuredField

/-! ## Members -/

/-- What `parse_value` takes. -/
def Value (text : Bytes) (v : SfValue) : Prop := BareItem text v ∨ InnerList text ∧ v = .innerList

theorem reads_parseValue : Reads parseValue Value Ends := by
  constructor
  · intro input rest v h
    rw [parseValue, bind_of_ok (peek_apply _)] at h
    split at h
    · obtain ⟨t, rfl, ht, hv⟩ := parseInnerList_ok h
      exact ⟨t, rfl, .inr ⟨ht, hv⟩⟩
    · obtain ⟨t, rfl, ht⟩ := reads_parseBareItem.sound h
      exact ⟨t, rfl, .inl ht⟩
  · rintro text rest v (ht | ⟨ht, rfl⟩) hends
    · have hparse := parseBareItem_apply ht hends
      obtain ⟨b, t, rfl, hb⟩ := ht.start
      have hother : (b :: t ++ rest).head? ≠ some 0x28 := by
        rintro ⟨⟩
        exact absurd hb (by decide)
      rw [parseValue, bind_of_ok (peek_apply _), if_neg hother, hparse]
    · have hparse := parseInnerList_apply ht rest
      cases ht with
      | mk =>
        rw [parseValue, bind_of_ok (peek_apply _)]
        exact hparse

theorem reads_scanMember : Reads scanMember Member ParameterEnds := by
  have hvalue := reads_optional (b := 0x3d) (d := SfValue.boolean) reads_parseValue
  have hparams := fun (k : Bytes) (v : SfValue) => reads_skipAnyParameters.map fun _ => (k, v)
  have hrest := fun k => hvalue.bind (hparams k) (by
    rintro _ ps _ rest ⟨_, hps, _⟩ ⟨hends, _⟩
    have hfollow := hps.ends hends
    refine ⟨hfollow, ?_⟩
    intro hhead
    exact absurd (hfollow _ hhead) (by decide))
  have hmember := (reads_scanKey initLabel ": dictionary key must start with lcalpha or '*'").bind hrest (by
    rintro _ _ _ rest ⟨t, v, ps, rfl, ⟨t, rfl, _⟩ | ⟨rfl, _⟩, ⟨_, hps, _⟩⟩ ⟨hends, _⟩
    · rintro b ⟨⟩
      decide
    · exact (hps.ends hends).keyEnds)
  apply hmember.mono
  · rintro text ⟨key, v⟩
    constructor
    · rintro ⟨k, _, _, rfl, ⟨rfl, hk⟩, _, _, ps, rfl, hv, _, hps, heq⟩
      obtain ⟨rfl, rfl⟩ := Prod.mk.inj heq
      obtain ⟨t, rfl, ht | ⟨ht, rfl⟩⟩ | ⟨rfl, rfl⟩ := hv
      · exact .item hk ht hps
      · exact .innerList hk ht hps
      · exact .flag hk hps
    · intro h
      cases h with
      | @flag _ ps hk hps =>
        exact ⟨key, key, ps, rfl, ⟨rfl, hk⟩, [], .boolean, ps, rfl, .inr ⟨rfl, rfl⟩, (), hps, rfl⟩
      | @item _ t ps _ hk ht hps =>
        exact ⟨key, key, _, rfl, ⟨rfl, hk⟩, 0x3d :: t, v, ps, rfl, .inl ⟨t, rfl, .inl ht⟩, (), hps, rfl⟩
      | @innerList _ t ps hk ht hps =>
        exact ⟨key, key, _, rfl, ⟨rfl, hk⟩, 0x3d :: t, _, ps, rfl, .inl ⟨t, rfl, .inr ⟨ht, rfl⟩⟩,
          (), hps, rfl⟩
  · exact id

theorem StructuredField.Member.start {text : Bytes} {m : Bytes × SfValue} (h : Member text m) :
    ∃ b t, text = b :: t ∧ isOws b = false := by
  have hkey : ∀ {k rest : Bytes}, Key k → ∃ b t, k ++ rest = b :: t ∧ isOws b = false := by
    intro k rest hk
    obtain ⟨b, t, rfl, hb⟩ := hk.head
    exact ⟨b, t ++ rest, rfl, hb⟩
  cases h with
  | flag hk _ => exact hkey hk
  | item hk _ _ => exact hkey hk
  | innerList hk _ _ => exact hkey hk

/-! ## The whole value -/

namespace WtInit

theorem turn_eq (out : WtInit) {input : Bytes} (h : input ≠ []) :
    turn out input =
      elementTurn scanMember put
          (separator initLabel ": expected ',' between dictionary members") out input := by
  obtain ⟨b, input, rfl⟩ := List.exists_cons_of_ne_nil h
  rw [turn, bind_of_ok (isEmpty_cons _ _)]
  rfl

theorem turn_nil (out : WtInit) : turn out [] = .ok (.inr out, []) := rfl

theorem turn_nil_stops (out out' : WtInit) (rest : Bytes) : turn out [] ≠ .ok (.inl out', rest) := by
  rw [turn_nil]
  nofun

theorem parse_of_ascii {v : Bytes} (h : Ascii v) : parse v = (scan v).map Prod.fst := by
  apply if_neg
  rw [List.any_eq_true]
  rintro ⟨b, hb, hge⟩
  rw [decide_eq_true_eq] at hge
  exact absurd (h b hb) (UInt8.not_lt.2 hge)

/-- Of a dictionary the parser keeps what `put` makes of the members. -/
theorem parse_apply {v : Bytes} {ms : List (Bytes × SfValue)} (h : Dictionary v ms) :
    parse v = ms.foldlM put default := by
  rw [parse_of_ascii (h.ascii fun hm => hm.ascii)]
  cases h with
  | empty ho =>
    have hskip := skipOws_apply (r := []) ho (by rintro _ ⟨⟩)
    rw [List.append_nil] at hskip
    rw [scan, bind_of_ok hskip, loop]
    rfl
  | @elements o t _ ho ht =>
    have hloop := elements_apply reads_scanMember (fun hm => hm.start) (fun s _ h => turn_eq s h)
      turn_nil_stops ht default
    obtain ⟨b, t, rfl, hb⟩ := ht.head fun hm => hm.start
    rw [scan, bind_of_ok (skipOws_apply ho (by rintro _ ⟨⟩; exact hb)), hloop]
    cases ms.foldlM put default with
    | error e => rfl
    | ok out => rfl

theorem parse_ok {v : Bytes} {out : WtInit} (h : parse v = .ok out) :
    ∃ ms, Dictionary v ms ∧ ms.foldlM put default = .ok out := by
  unfold parse at h
  split at h
  · cases h
  · obtain ⟨⟨_, rest⟩, hscan, rfl⟩ := map_eq_ok.1 h
    obtain ⟨_, mid, hskip, hloop⟩ := bind_eq_ok.1 hscan
    obtain ⟨o, rfl, ho⟩ := reads_skipOws.sound hskip
    by_cases hnil : mid = []
    · subst hnil
      rw [loop] at hloop
      cases hloop
      rw [List.append_nil]
      exact ⟨[], .empty ho, rfl⟩
    · obtain ⟨ms, hms, hfold, _⟩ := elements_ok reads_scanMember (fun s _ h => turn_eq s h)
        turn_nil_stops hnil hloop
      exact ⟨ms, .elements ho hms, hfold⟩

/-! ## What the members say -/

/-- The keys that count. -/
def knownKeys : List Bytes := [ascii "u", ascii "bl", ascii "br"]

/-- The members that count are integers from 0 on. -/
def Admissible (ms : List (Bytes × SfValue)) : Prop :=
  ∀ m ∈ ms, m.1 ∈ knownKeys → ∃ n : Nat, m.2 = .integer n

/-- The value of the last member of a name. -/
def lastValue (key : Bytes) (ms : List (Bytes × SfValue)) : Option SfValue :=
  ((ms.filter fun m => m.1 = key).getLast?).map Prod.snd

/-- A field, as a value of a member. -/
def asValue (field : Option Nat) : Option SfValue := field.map fun n : Nat => .integer n

/-- The fields are the values of the last members of their names. -/
structure Describes (out : WtInit) (ms : List (Bytes × SfValue)) : Prop where
  u : asValue out.u = lastValue (ascii "u") ms
  bl : asValue out.bl = lastValue (ascii "bl") ms
  br : asValue out.br = lastValue (ascii "br") ms

theorem lastValue_append (key : Bytes) (ms : List (Bytes × SfValue)) (m : Bytes × SfValue) :
    lastValue key (ms ++ [m]) = if m.1 = key then some m.2 else lastValue key ms := by
  by_cases h : m.1 = key
  · simp [lastValue, h]
  · simp [lastValue, h]

theorem extractNonnegInteger_nat (n : Nat) (key : String) :
    extractNonnegInteger (.integer n) key = .ok n := by
  simp [extractNonnegInteger]

theorem extractNonnegInteger_ok {value : SfValue} {key : String} {n : Nat}
    (h : extractNonnegInteger value key = .ok n) : value = .integer n := by
  cases value with
  | integer m =>
    simp only [extractNonnegInteger] at h
    split at h
    · rename_i hpos
      cases h
      rw [Int.toNat_of_nonneg hpos]
    · cases h
  | _ => cases h

/-- What one member leaves in the fields. -/
theorem put_ok {s out : WtInit} {m : Bytes × SfValue} (h : put s m = .ok out) :
    (m.1 ∈ knownKeys → ∃ n : Nat, m.2 = .integer n) ∧
      asValue out.u = (if m.1 = ascii "u" then some m.2 else asValue s.u) ∧
      asValue out.bl = (if m.1 = ascii "bl" then some m.2 else asValue s.bl) ∧
      asValue out.br = (if m.1 = ascii "br" then some m.2 else asValue s.br) := by
  obtain ⟨key, value⟩ := m
  have hbl : ascii "bl" ≠ ascii "u" := by decide
  have hbr : ascii "br" ≠ ascii "u" ∧ ascii "br" ≠ ascii "bl" := by decide
  unfold put at h
  split at h
  · rename_i hkey
    obtain rfl : key = ascii "u" := hkey
    obtain ⟨n, hn, rfl⟩ := map_eq_ok.1 h
    obtain rfl := extractNonnegInteger_ok hn
    simp [asValue, hbl.symm, hbr.1.symm]
  · split at h
    · rename_i hkey
      obtain rfl : key = ascii "bl" := hkey
      obtain ⟨n, hn, rfl⟩ := map_eq_ok.1 h
      obtain rfl := extractNonnegInteger_ok hn
      simp [asValue, hbl, hbr.2.symm]
    · split at h
      · rename_i hkey
        obtain rfl : key = ascii "br" := hkey
        obtain ⟨n, hn, rfl⟩ := map_eq_ok.1 h
        obtain rfl := extractNonnegInteger_ok hn
        simp [asValue, hbr.1, hbr.2]
      · rename_i hu hbl hbr
        cases h
        simp only at hu hbl hbr
        simp [knownKeys, hu, hbl, hbr]

theorem put_unknown {m : Bytes × SfValue} (h : m.1 ∉ knownKeys) (s : WtInit) : put s m = .ok s := by
  simp only [knownKeys, List.mem_cons, List.not_mem_nil, or_false, not_or] at h
  rw [put, if_neg h.1, if_neg h.2.1, if_neg h.2.2]

theorem put_integer {m : Bytes × SfValue} {n : Nat} (h : m.2 = .integer n) (s : WtInit) :
    ∃ out, put s m = .ok out := by
  unfold put
  rw [h]
  simp only [extractNonnegInteger_nat]
  split
  · exact ⟨_, rfl⟩
  · split
    · exact ⟨_, rfl⟩
    · split
      · exact ⟨_, rfl⟩
      · exact ⟨_, rfl⟩

theorem fold_admissible {ms : List (Bytes × SfValue)} (h : Admissible ms) (s : WtInit) :
    ∃ out, ms.foldlM put s = .ok out := by
  induction ms generalizing s with
  | nil => exact ⟨s, rfl⟩
  | cons m ms ih =>
    obtain ⟨hm, hms⟩ := List.forall_mem_cons.1 h
    obtain ⟨s', hs'⟩ : ∃ s', put s m = .ok s' := by
      by_cases hknown : m.1 ∈ knownKeys
      · obtain ⟨n, hn⟩ := hm hknown
        exact put_integer hn s
      · exact ⟨s, put_unknown hknown s⟩
    obtain ⟨out, hout⟩ := ih hms s'
    refine ⟨out, ?_⟩
    rw [List.foldlM_cons, hs']
    exact hout

theorem fold_ok {ms : List (Bytes × SfValue)} {out : WtInit} (h : ms.foldlM put default = .ok out) :
    Admissible ms ∧ Describes out ms := by
  induction ms using List.reverseRecOn generalizing out with
  | nil =>
    cases h
    exact ⟨List.forall_mem_nil _, rfl, rfl, rfl⟩
  | append_singleton ms m ih =>
    rw [List.foldlM_append] at h
    cases hms : ms.foldlM put default with
    | error e =>
      rw [hms] at h
      cases h
    | ok s =>
      rw [hms] at h
      have hput : put s m = .ok out := by
        cases hm : put s m with
        | error e =>
          simp only [bind, Except.bind, List.foldlM_cons, hm] at h
          cases h
        | ok s' =>
          simp only [bind, Except.bind, List.foldlM_cons, hm] at h
          exact h
      obtain ⟨hadm, hdesc⟩ := ih hms
      obtain ⟨hm, hu, hbl, hbr⟩ := put_ok hput
      refine ⟨List.forall_mem_append.2 ⟨hadm, List.forall_mem_singleton.2 hm⟩, ?_, ?_, ?_⟩
      · rw [lastValue_append, ← hdesc.u]
        exact hu
      · rw [lastValue_append, ← hdesc.bl]
        exact hbl
      · rw [lastValue_append, ← hdesc.br]
        exact hbr

theorem asValue_injective : Function.Injective asValue := by
  have hinteger : Function.Injective fun n : Nat => SfValue.integer n := by
    intro a b h
    exact Int.ofNat.inj (SfValue.integer.inj h)
  intro a b h
  exact Option.map_injective hinteger h

theorem Describes.unique {out out' : WtInit} {ms : List (Bytes × SfValue)} (h : Describes out ms)
    (h' : Describes out' ms) : out = out' := by
  have hu := asValue_injective (h.u.trans h'.u.symm)
  have hbl := asValue_injective (h.bl.trans h'.bl.symm)
  have hbr := asValue_injective (h.br.trans h'.br.symm)
  cases out
  cases out'
  simp only at hu hbl hbr
  rw [hu, hbl, hbr]

/-- Members that the parser does not know change nothing. -/
theorem fold_filter (ms : List (Bytes × SfValue)) (s : WtInit) :
    ms.foldlM put s = (ms.filter fun m => m.1 ∈ knownKeys).foldlM put s := by
  induction ms generalizing s with
  | nil => rfl
  | cons m ms ih =>
    by_cases h : m.1 ∈ knownKeys
    · rw [List.filter_cons, if_pos (decide_eq_true h), List.foldlM_cons, List.foldlM_cons]
      exact bind_congr fun s' => ih s'
    · rw [List.filter_cons, if_neg (by simpa using h), List.foldlM_cons, put_unknown h]
      exact ih s

end WtInit

theorem StructuredField.Joined.exists_text {α : Type} {G : Bytes → α → Prop} {text : Bytes} {as : List α}
    (h : Joined G text as) : ∀ a ∈ as, ∃ t, G t a := by
  induction h with
  | last ht _ => exact List.forall_mem_singleton.2 ⟨_, ht⟩
  | cons ht _ _ _ ih => exact List.forall_mem_cons.2 ⟨⟨_, ht⟩, ih⟩

/-- An integer of a dictionary has no more than 15 digits. -/
theorem dictionary_integer {v : Bytes} {ms : List (Bytes × SfValue)} (h : Dictionary v ms)
    {m : Bytes × SfValue} (hm : m ∈ ms) {n : Nat} (hn : m.2 = .integer n) : n < 10 ^ 15 := by
  have hbound : ∀ {t : Bytes}, BareItem t (.integer n) → n < 10 ^ 15 := by
    intro t ht
    cases ht with
    | integer ht =>
      generalize hz : (n : Int) = z at ht
      cases ht with
      | plain hd =>
        have := digits_lt hd
        omega
      | minus hd =>
        have := digits_lt hd
        omega
  obtain ⟨t, ht⟩ : ∃ t, Member t m := by
    cases h with
    | empty _ => cases hm
    | elements _ ht => exact ht.exists_text m hm
  obtain ⟨key, value⟩ := m
  obtain rfl : value = .integer n := hn
  cases ht with
  | item _ ht _ => exact hbound ht

namespace WtInit

theorem lastValue_mem {key : Bytes} {ms : List (Bytes × SfValue)} {value : SfValue}
    (h : lastValue key ms = some value) : (key, value) ∈ ms := by
  obtain ⟨m, hlast, rfl⟩ := Option.map_eq_some_iff.1 h
  obtain ⟨hm, hkey⟩ := List.mem_filter.1 (List.mem_of_getLast? hlast)
  rw [decide_eq_true_eq] at hkey
  rw [← hkey]
  exact hm

theorem Describes.lt {out : WtInit} {ms : List (Bytes × SfValue)} {v : Bytes} (h : Describes out ms)
    (hv : Dictionary v ms) {n : Nat} (hn : n ∈ out.u ∨ n ∈ out.bl ∨ n ∈ out.br) : n < 10 ^ 15 := by
  have hfield : ∀ {key : Bytes} {field : Option Nat}, asValue field = lastValue key ms → n ∈ field →
      n < 10 ^ 15 := by
    rintro key field hlast hmem
    obtain rfl : field = some n := hmem
    exact dictionary_integer hv (lastValue_mem hlast.symm) rfl
  obtain hu | hbl | hbr := hn
  · exact hfield h.u hu
  · exact hfield h.bl hbl
  · exact hfield h.br hbr

/-- The parser accepts the dictionaries whose known members are integers from 0 on, and returns the
last one of each name; other members and parameters change nothing, and every value it returns has
at most 15 digits. -/
theorem parse_dictionary :
    (∀ v out, parse v = .ok out ↔ ∃ ms, Dictionary v ms ∧ Admissible ms ∧ Describes out ms) ∧
      (∀ v, (∃ out, parse v = .ok out) ↔ ∃ ms, Dictionary v ms ∧ Admissible ms) ∧
      (∀ v v' ms ms', Dictionary v ms → Dictionary v' ms' →
        (ms.filter fun m => m.1 ∈ knownKeys) = (ms'.filter fun m => m.1 ∈ knownKeys) →
        parse v = parse v') ∧
      ∀ v out n, parse v = .ok out → n ∈ out.u ∨ n ∈ out.bl ∨ n ∈ out.br → n < 10 ^ 15 := by
  have hiff : ∀ v out, parse v = .ok out ↔ ∃ ms, Dictionary v ms ∧ Admissible ms ∧ Describes out ms := by
    intro v out
    constructor
    · intro h
      obtain ⟨ms, hms, hfold⟩ := parse_ok h
      exact ⟨ms, hms, fold_ok hfold⟩
    · rintro ⟨ms, hms, hadm, hdesc⟩
      obtain ⟨out', hfold⟩ := fold_admissible hadm default
      rw [parse_apply hms, hfold, hdesc.unique (fold_ok hfold).2]
  refine ⟨hiff, ?_, ?_, ?_⟩
  · intro v
    constructor
    · rintro ⟨out, h⟩
      obtain ⟨ms, hms, hadm, _⟩ := (hiff v out).1 h
      exact ⟨ms, hms, hadm⟩
    · rintro ⟨ms, hms, hadm⟩
      rw [parse_apply hms]
      exact fold_admissible hadm default
  · intro v v' ms ms' h h' heq
    rw [parse_apply h, parse_apply h', fold_filter ms, fold_filter ms', heq]
  · intro v out n h hn
    obtain ⟨ms, hms, _, hdesc⟩ := (hiff v out).1 h
    exact hdesc.lt hms hn

/-- `u=1, x;p` is read as `u=1`. -/
theorem parse_dictionary_unknown :
    ∃ ms ms', Dictionary [0x75, 0x3d, 0x31, 0x2c, 0x20, 0x78, 0x3b, 0x70] ms ∧
      Dictionary [0x75, 0x3d, 0x31] ms' ∧ ms ≠ ms' ∧
      parse [0x75, 0x3d, 0x31, 0x2c, 0x20, 0x78, 0x3b, 0x70] = parse [0x75, 0x3d, 0x31] := by
  have hnone : Ows [] := by simp [Ows]
  have hspace : Ows [0x20] := by simp [Ows]
  have hkey : ∀ b : UInt8, isAsciiLowercase b = true → Key [b] := fun b hb =>
    .mk (t := []) (.inl hb) (by simp)
  have hone : BareItem [0x31] (.integer 1) :=
    .integer (n := 1) (.plain ⟨by decide, by decide, by decide +kernel⟩)
  have hknown := Member.item (hkey 0x75 (by decide +kernel)) hone .nil
  have hspaces : Spaces [] := by simp [Spaces]
  have hparameter : AnyParameters [0x3b, 0x70] := .cons (.flag hspaces (hkey 0x70 (by decide +kernel))) .nil
  have hother := Member.flag (hkey 0x78 (by decide +kernel)) hparameter
  have hboth := Listed.elements hnone (.cons hknown hnone hspace (.last hother hnone))
  have halone := Listed.elements hnone (.last hknown hnone)
  exact ⟨_, _, hboth, halone, by simp,
    parse_dictionary.2.2.1 _ _ _ _ hboth halone (by decide +kernel)⟩

end WtInit

end Http2.WebTransport
