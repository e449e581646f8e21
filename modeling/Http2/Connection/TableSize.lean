import Http2.Connection.Fragments
import Http2.Connection.Tuning

/-! SETTINGS_HEADER_TABLE_SIZE and the table size updates in front of a header block. What is
signalled is computed once for each SETTINGS frame, from the sizes before and after it. -/
namespace Http2.TableSize

open Hpack Lib Lib.Prog Connection

/-! ## What the peer sent -/

/-- The values of SETTINGS_HEADER_TABLE_SIZE in a frame, in wire order. -/
def values (settings : List Setting) : List Nat :=
  settings.filterMap fun
    | .headerTableSize v => some v.toNat
    | _ => none

/-- The values of several frames. -/
def received (frames : List (List Setting)) : List Nat := frames.flatMap values

/-- The size in force after values that came on top of `size`. -/
def latest (size : Nat) (sizes : List Nat) : Nat := sizes.getLast?.getD size

/-- The SETTINGS frames since the last header block of ours, oldest first. -/
def frames : List Item → List (List Setting)
  | [] => []
  | .encoded _ _ :: _ => []
  | .received (.settings f) :: items =>
    if f.ack then frames items else frames items ++ [f.settings]
  | _ :: items => frames items

/-- The size in force when that block left. -/
def before : List Item → Nat
  | [] => Settings.new.headerTableSize.toNat
  | .encoded _ _ :: items => latest (before items) (received (frames items))
  | _ :: items => before items

/-! ## What the next block owes the peer -/

def sizeUpdate (size : Nat) : Bytes := Integer.encodeTemp size 5 0x20

/-- With `least` the smallest of the values since a block that left under `size` and `last` the last
of them: if one of them differs from `size`, then `block` begins with updates that announce `least`,
unless neither `size` nor `last` is larger, and end with `last`; `body` is the rest of the block. The
table held no more than `least` octets before. -/
def Announces (size : Nat) (sizes : List Nat) (table : Nat) (block body : Bytes) : Prop :=
  (∃ v ∈ sizes, v ≠ size) → ∀ least ∈ sizes, (∀ v ∈ sizes, least ≤ v) →
    ∀ last, sizes.getLast? = some last →
      table ≤ least ∧ ∃ updates : List Nat, (∀ u ∈ updates, u < 2 ^ 32) ∧
        block = updates.flatMap sizeUpdate ++ body ∧
        (least < size ∨ least < last → least ∈ updates) ∧ updates.getLast? = some last

/-- The smallest value ends its frame and changes the size there, or no value changes anything. -/
def Tracked (size : Nat) (frames : List (List Setting)) : Prop :=
  (∀ v ∈ received frames, v = size) ∨
    ∃ earlier frame later, frames = earlier ++ frame :: later ∧
      ∃ least, (values frame).getLast? = some least ∧ (∀ v ∈ received frames, least ≤ v) ∧
        latest size (received earlier) ≠ least

/-! ## What the code keeps -/

/-- What a frame changed the size to. -/
def change (size : Nat) (frame : List Setting) : List Nat :=
  if latest size (values frame) = size then [] else [latest size (values frame)]

/-- What the frames changed the size to, each compared with what it found. -/
def changes : Nat → List (List Setting) → List Nat
  | _, [] => []
  | size, frame :: frames => change size frame ++ changes (latest size (values frame)) frames

section Facts

variable {size x : Nat} {frame : List Setting} {frames : List (List Setting)}

@[simp] theorem latest_nil (size : Nat) : latest size [] = size := rfl

theorem latest_append (size : Nat) (as bs : List Nat) :
    latest size (as ++ bs) = latest (latest size as) bs := by
  cases hbs : bs.getLast? with
  | none =>
    obtain rfl := List.getLast?_eq_none_iff.1 hbs
    rw [List.append_nil, latest_nil]
  | some b => simp only [latest, List.getLast?_append, hbs, Option.some_or, Option.getD_some]

theorem received_cons : received (frame :: frames) = values frame ++ received frames :=
  List.flatMap_cons

theorem received_append (as bs : List (List Setting)) : received (as ++ bs) = received as ++ received bs :=
  List.flatMap_append

theorem latest_change : latest size (change size frame) = latest size (values frame) := by
  unfold change
  split
  · rename_i hsame
    rw [hsame, latest_nil]
  · rfl

theorem mem_change : x ∈ change size frame ↔ (values frame).getLast? = some x ∧ size ≠ x := by
  unfold change latest
  cases hlast : (values frame).getLast? with
  | none => simp
  | some v =>
    by_cases hv : v = size
    · subst hv
      simp
    · simp only [Option.getD_some, hv, if_false, List.mem_singleton, Option.some.injEq]
      constructor
      · rintro rfl
        exact ⟨rfl, Ne.symm hv⟩
      · rintro ⟨rfl, _⟩
        rfl

theorem changes_append (earlier : List (List Setting)) : changes size (earlier ++ [frame]) =
    changes size earlier ++ change (latest size (received earlier)) frame := by
  induction earlier generalizing size with
  | nil => rw [List.nil_append, changes, changes, changes, List.append_nil, List.nil_append]; rfl
  | cons first earlier ih =>
    rw [List.cons_append, changes, ih, received_cons, latest_append, changes, List.append_assoc]

/-- After the last change the size stays. -/
theorem latest_changes : latest size (changes size frames) = latest size (received frames) := by
  induction frames generalizing size with
  | nil => rfl
  | cons frame frames ih =>
    rw [changes, received_cons, latest_append, latest_append, latest_change, ih]

/-- A change is the last value of its frame. -/
theorem mem_changes : x ∈ changes size frames ↔ ∃ earlier frame later,
    frames = earlier ++ frame :: later ∧ (values frame).getLast? = some x ∧
      latest size (received earlier) ≠ x := by
  induction frames generalizing size with
  | nil => simp [changes]
  | cons first frames ih =>
    rw [changes, List.mem_append, mem_change, ih]
    constructor
    · rintro (⟨hlast, hne⟩ | ⟨earlier, frame, later, rfl, hlast, hne⟩)
      · exact ⟨[], first, frames, rfl, hlast, hne⟩
      · refine ⟨first :: earlier, frame, later, rfl, hlast, ?_⟩
        rw [received_cons, latest_append]
        exact hne
    · rintro ⟨earlier, frame, later, hframes, hlast, hne⟩
      cases earlier with
      | nil =>
        obtain ⟨rfl, rfl⟩ := List.cons.inj hframes
        exact .inl ⟨hlast, hne⟩
      | cons first' earlier =>
        obtain ⟨rfl, rfl⟩ := List.cons.inj hframes
        rw [received_cons, latest_append] at hne
        exact .inr ⟨earlier, frame, later, rfl, hlast, hne⟩

theorem changes_subset (h : x ∈ changes size frames) : x ∈ received frames := by
  obtain ⟨earlier, frame, later, rfl, hlast, _⟩ := mem_changes.1 h
  rw [received_append, received_cons]
  exact List.mem_append_right _ (List.mem_append_left _ (List.mem_of_getLast? hlast))

end Facts

/-! ## What is signalled -/

/-- The smallest and the last of the sizes recorded. -/
theorem foldl_trackSizeUpdate {sizes : List Nat} (h : sizes ≠ []) :
    ∃ least last, sizes.foldl trackSizeUpdate none = some (least, last) ∧ least ∈ sizes ∧
      (∀ v ∈ sizes, least ≤ v) ∧ sizes.getLast? = some last := by
  induction sizes using List.reverseRecOn with
  | nil => exact absurd rfl h
  | append_singleton sizes v ih =>
    rw [List.foldl_append]
    by_cases hnil : sizes = []
    · subst hnil
      exact ⟨v, v, rfl, by simp, by simp, rfl⟩
    · obtain ⟨least, last, hfold, hmem, hleast, _⟩ := ih hnil
      rw [hfold]
      refine ⟨min least v, v, rfl, ?_, ?_, by simp⟩
      · rw [List.mem_append, List.mem_singleton]
        obtain hle | hle := Nat.le_total least v
        · rw [Nat.min_eq_left hle]
          exact .inl hmem
        · rw [Nat.min_eq_right hle]
          exact .inr rfl
      · intro w hw
        obtain hw | hw := List.mem_append.1 hw
        · exact Nat.le_trans (Nat.min_le_left _ _) (hleast w hw)
        · obtain rfl := List.mem_singleton.1 hw
          exact Nat.min_le_right _ _

/-- The updates that a block begins with. -/
def signalled : PendingUpdate → List Nat
  | some (minSize, finalSize) => if minSize ≠ finalSize then [minSize, finalSize] else [finalSize]
  | none => []

theorem encodePending_eq (e : Encoder) (pending : PendingUpdate) :
    e.encodePending pending = (signalled pending).flatMap sizeUpdate := by
  cases pending with
  | none => rfl
  | some p =>
    obtain ⟨minSize, finalSize⟩ := p
    by_cases hne : minSize ≠ finalSize
    · simp only [Encoder.encodePending, signalled, if_pos hne, List.flatMap_cons, List.flatMap_nil,
        List.append_nil]
      rfl
    · simp only [Encoder.encodePending, signalled, if_neg hne, List.flatMap_cons, List.flatMap_nil,
        List.append_nil, List.nil_append]
      rfl

theorem sizeUpdate_injective {u v : Nat} {as bs : Bytes} (hu : u < 2 ^ 32) (hv : v < 2 ^ 32)
    (h : sizeUpdate u ++ as = sizeUpdate v ++ bs) : u = v ∧ as = bs := by
  have hread : ∀ w < 2 ^ 32, ∀ rest,
      Integer.decode (sizeUpdate w ++ rest) 5 = .ok (w, (sizeUpdate w).length) :=
    fun w hw rest => Integer.decode_encodeTemp w 5 0x20 rest (by decide) (by decide) (by omega)
  have hreadu := hread u hu as
  rw [h, hread v hv bs] at hreadu
  obtain ⟨rfl, _⟩ := Prod.mk.inj (Except.ok.inj hreadu)
  exact ⟨rfl, List.append_cancel_left h⟩

/-- Octets tell the updates. -/
theorem updates_injective {us vs : List Nat} (hus : ∀ u ∈ us, u < 2 ^ 32) (hvs : ∀ v ∈ vs, v < 2 ^ 32)
    (h : us.flatMap sizeUpdate = vs.flatMap sizeUpdate) : us = vs := by
  have hne : ∀ u < 2 ^ 32, sizeUpdate u ≠ [] := by
    intro u hu hnil
    obtain ⟨v, _, tail, hhead⟩ := Integer.encodeTemp_head u 5 0x20 (by omega)
    rw [sizeUpdate, hhead] at hnil
    cases hnil
  induction us generalizing vs with
  | nil =>
    cases vs with
    | nil => rfl
    | cons v vs => exact absurd (List.append_eq_nil_iff.1 h.symm).1 (hne v (hvs v List.mem_cons_self))
  | cons u us ih =>
    cases vs with
    | nil => exact absurd (List.append_eq_nil_iff.1 h).1 (hne u (hus u List.mem_cons_self))
    | cons v vs =>
      rw [List.flatMap_cons, List.flatMap_cons] at h
      obtain ⟨rfl, hrest⟩ := sizeUpdate_injective (hus u List.mem_cons_self) (hvs v List.mem_cons_self) h
      rw [ih (fun w hw => hus w (List.mem_cons_of_mem u hw))
        (fun w hw => hvs w (List.mem_cons_of_mem u hw)) hrest]

theorem signalled_mem {least last u : Nat} (h : u ∈ signalled (some (least, last))) :
    u = least ∨ u = last := by
  simp only [signalled] at h
  split at h
  · simpa using h
  · exact .inr (List.mem_singleton.1 h)

theorem least_signalled (least last : Nat) : least ∈ signalled (some (least, last)) := by
  simp only [signalled]
  split
  · exact List.mem_cons_self
  · rename_i heq
    rw [not_not.1 heq]
    exact List.mem_cons_self

theorem last_signalled (least last : Nat) :
    (signalled (some (least, last))).getLast? = some last := by
  simp only [signalled]
  split <;> rfl

theorem exists_least {sizes : List Nat} (h : sizes ≠ []) :
    ∃ least ∈ sizes, ∀ v ∈ sizes, least ≤ v := by
  obtain ⟨least, _, _, hmem, hleast, _⟩ := foldl_trackSizeUpdate h
  exact ⟨least, hmem, hleast⟩

section Announces

variable {size table : Nat} {frames : List (List Setting)} {block body : Bytes}

/-- A block that begins with what the frames changed the size to says what it owes exactly where the
smallest value is one of those sizes. -/
theorem announces_iff (hsizes : ∀ v ∈ received frames, v < 2 ^ 32)
    (htable : ∀ v ∈ changes size frames, table ≤ v)
    (hblock : block =
      (signalled ((changes size frames).foldl trackSizeUpdate none)).flatMap sizeUpdate ++ body) :
    Announces size (received frames) table block body ↔ Tracked size frames := by
  constructor
  · intro h
    by_cases hall : ∀ v ∈ received frames, v = size
    · exact .inl hall
    · -- The updates are those signalled, so the last value is the last change.
      have hother : ∃ v ∈ received frames, v ≠ size := by simpa using hall
      have hsome : received frames ≠ [] := by
        obtain ⟨v, hv, _⟩ := hother
        exact List.ne_nil_of_mem hv
      obtain ⟨least, hmem, hleast⟩ := exists_least hsome
      have hgetLast := List.getLast?_eq_some_getLast hsome
      generalize (received frames).getLast hsome = last at hgetLast
      obtain ⟨_, updates, hupdates, heq, hannounced, hlast⟩ := h hother least hmem hleast last hgetLast
      have hnone : changes size frames ≠ [] := by
        intro hnil
        rw [hblock, hnil] at heq
        have hnil' := List.append_cancel_right heq
        have hempty : [] = updates :=
          updates_injective (by simp) hupdates hnil'
        rw [← hempty] at hlast
        cases hlast
      obtain ⟨least', last', hfold, hmem', _, hlast'⟩ := foldl_trackSizeUpdate hnone
      have hlastMem : last' ∈ changes size frames := List.mem_of_getLast? hlast'
      rw [hblock, hfold] at heq
      have hsignalled : signalled (some (least', last')) = updates := by
        refine updates_injective ?_ hupdates (List.append_cancel_right heq)
        intro u hu
        obtain rfl | rfl := signalled_mem hu
        · exact hsizes _ (changes_subset hmem')
        · exact hsizes _ (changes_subset hlastMem)
      have hsame : last' = last := by
        rw [← hsignalled, last_signalled] at hlast
        exact Option.some.inj hlast
      have hchange : least ∈ changes size frames := by
        by_cases hlow : least < size ∨ least < last
        · have hmember := hannounced hlow
          rw [← hsignalled] at hmember
          obtain rfl | rfl := signalled_mem hmember
          · exact hmem'
          · exact hlastMem
        · have hle := hleast last (List.mem_of_getLast? hgetLast)
          have : least = last' := by omega
          rw [this]
          exact hlastMem
      obtain ⟨earlier, frame, later, hframes, hvalue, hne⟩ := mem_changes.1 hchange
      exact .inr ⟨earlier, frame, later, hframes, least, hvalue, hleast, hne⟩
  · rintro (hall | ⟨earlier, frame, later, hframes, least, hvalue, hleast, hne⟩)
    · rintro ⟨v, hv, hother⟩
      exact absurd (hall v hv) hother
    · intro _ least₀ hmem₀ hleast₀ last hgetLast
      have hchange : least ∈ changes size frames :=
        mem_changes.2 ⟨earlier, frame, later, hframes, hvalue, hne⟩
      obtain rfl : least = least₀ :=
        Nat.le_antisymm (hleast _ hmem₀) (hleast₀ _ (changes_subset hchange))
      obtain ⟨least', last', hfold, hmem', hleast', hlast'⟩ :=
        foldl_trackSizeUpdate (List.ne_nil_of_mem hchange)
      obtain rfl : least' = least :=
        Nat.le_antisymm (hleast' _ hchange) (hleast _ (changes_subset hmem'))
      have hsame : last' = last := by
        have hlatest := @latest_changes size frames
        simp only [latest, hlast', hgetLast, Option.getD_some] at hlatest
        exact hlatest
      subst hsame
      refine ⟨htable _ hchange, signalled (some (least', last')), ?_, ?_, fun _ => ?_, ?_⟩
      · intro u hu
        obtain rfl | rfl := signalled_mem hu
        · exact hsizes _ (changes_subset hmem')
        · exact hsizes _ (List.mem_of_getLast? hgetLast)
      · rw [hblock, hfold]
      · exact least_signalled _ _
      · exact last_signalled _ _

end Announces

/-! ## What the connection keeps -/

theorem frames_marks (items : List Item) : frames (items.filter Item.isMark) = frames items := by
  induction items with
  | nil => rfl
  | cons i items ih =>
    cases i with
    | received f =>
      cases f with
      | settings f =>
        cases hack : f.ack with
        | true => simp [frames, Item.isMark, hack, ih]
        | false => simp [frames, Item.isMark, hack, ih]
      | _ => exact ih
    | sent f =>
      cases f with
      | settings f => cases hack : f.ack <;> simp [frames, Item.isMark, hack, ih]
      | _ => exact ih
    | encoded sid headers => rfl
    | rejected | event | opened | queued | decoded => exact ih

theorem before_marks (items : List Item) : before (items.filter Item.isMark) = before items := by
  induction items with
  | nil => rfl
  | cons i items ih =>
    cases i with
    | received f =>
      cases f with
      | settings f => cases hack : f.ack <;> simp [before, Item.isMark, hack, ih]
      | _ => exact ih
    | sent f =>
      cases f with
      | settings f => cases hack : f.ack <;> simp [before, Item.isMark, hack, ih]
      | _ => exact ih
    | encoded sid headers =>
      have hframes := frames_marks items
      simp only [List.filter_cons, Item.isMark, if_true, before, ih, hframes]
    | rejected | event | opened | queued | decoded => exact ih

theorem foldl_tableSize (settings : List Setting) (s : Settings) :
    (settings.foldl Settings.apply s).headerTableSize.toNat =
      latest s.headerTableSize.toNat (values settings) := by
  induction settings generalizing s with
  | nil => rfl
  | cons setting settings ih =>
    rw [List.foldl_cons, ih]
    cases setting with
    | headerTableSize v =>
      change latest v.toNat (values settings) = latest _ ([v.toNat] ++ values settings)
      rw [latest_append]
      rfl
    | _ => rfl

/-- The fields agree with what the history says of the peer's frames. -/
structure Recorded (t : Tuning) : Prop where
  size : t.remoteSettings.headerTableSize.toNat =
    latest (before t.marks) (received (frames t.marks))
  pending : t.pendingTableSizeUpdate =
    (changes (before t.marks) (frames t.marks)).foldl trackSizeUpdate none
  valid : t.hpackEncoder.dynamicTable.Valid
  evicted : ∀ v ∈ changes (before t.marks) (frames t.marks), t.hpackEncoder.dynamicTable.size ≤ v

theorem new_recorded (role : Role) (limits : Limits) : Recorded (Core.new role limits).tuning where
  size := rfl
  pending := rfl
  valid := DynamicTable.new_valid _
  evicted := by simp [Core.new, frames, changes]

theorem settings_recorded {c : Core} {f : SettingsFrame} (h : Recorded c.tuning)
    (hack : f.ack = false) :
    Recorded ⟨f.settings.foldl Settings.apply c.remoteSettings,
      trackTableSize c.remoteSettings.headerTableSize
        (f.settings.foldl Settings.apply c.remoteSettings).headerTableSize c.pendingTableSizeUpdate,
      c.hpackEncoder.setMaxTableSize
        (f.settings.foldl Settings.apply c.remoteSettings).headerTableSize.toNat,
      .sent (.settings ⟨true, []⟩) :: .received (.settings f) :: c.tuning.marks⟩ := by
  obtain ⟨hsize, hpending, hvalid, hevicted⟩ := h
  let marks := Item.sent (.settings ⟨true, []⟩) :: .received (.settings f) :: c.tuning.marks
  have hframes : frames marks = frames c.tuning.marks ++ [f.settings] := by
    simp [marks, frames, hack]
  have hbefore : before marks = before c.tuning.marks := by simp [marks, before]
  have hnext : (f.settings.foldl Settings.apply c.remoteSettings).headerTableSize.toNat =
      latest (latest (before c.tuning.marks) (received (frames c.tuning.marks)))
        (values f.settings) := by
    rw [foldl_tableSize]
    exact congrArg (latest · _) hsize
  have hchanges : changes (before marks) (frames marks) =
      changes (before c.tuning.marks) (frames c.tuning.marks) ++
        change (c.remoteSettings.headerTableSize.toNat) f.settings := by
    rw [hframes, hbefore, changes_append]
    exact congrArg (_ ++ change · _) hsize.symm
  have hcut := DynamicTable.setMaxSize_size hvalid
    (f.settings.foldl Settings.apply c.remoteSettings).headerTableSize.toNat
  refine ⟨?_, ?_, DynamicTable.setMaxSize_valid hvalid _, ?_⟩
  · change _ = latest (before marks) (received (frames marks))
    rw [hnext, hframes, hbefore, received_append, latest_append, received_cons]
    exact congrArg (latest _) (List.append_nil _).symm
  · change _ = (changes (before marks) (frames marks)).foldl trackSizeUpdate none
    rw [hchanges, List.foldl_append]
    refine Eq.trans ?_ (congrArg (List.foldl trackSizeUpdate · _) hpending)
    rw [change, ← foldl_tableSize]
    by_cases hsame : (f.settings.foldl Settings.apply c.remoteSettings).headerTableSize =
        c.remoteSettings.headerTableSize
    · simp [trackTableSize, hsame]
    · have hne : (f.settings.foldl Settings.apply c.remoteSettings).headerTableSize.toNat ≠
          c.remoteSettings.headerTableSize.toNat := fun heq => hsame (UInt32.toNat_inj.1 heq)
      simp [trackTableSize, hsame, hne]
  · intro v hv
    change v ∈ changes (before marks) (frames marks) at hv
    rw [hchanges, List.mem_append] at hv
    obtain hv | hv := hv
    · exact Nat.le_trans hcut.2 (hevicted v hv)
    · have hlast := (mem_change.1 hv).1
      refine Nat.le_trans hcut.1 (Nat.le_of_eq ?_)
      rw [foldl_tableSize, latest, hlast, Option.getD_some]

theorem tunes_recorded {c : Core} {l : Label} {t : Tuning} (h : Recorded c.tuning)
    (htunes : Tunes c l t) : Recorded t := by
  cases htunes with
  | same => exact h
  | settings f hack => exact settings_recorded h hack
  | block k sid headers =>
    exact {
      size := h.size
      pending := rfl
      valid := Encoder.encode_keepsValid h.valid headers
      evicted := by simp [frames, changes] }

theorem steps_recorded {T : Terms} {c d : Core} (h : Recorded c.tuning) (hsteps : Steps T c d) :
    Recorded d.tuning := by
  induction hsteps with
  | refl => exact h
  | tail _ hstep ih =>
    obtain ⟨l, _, hstep⟩ := hstep
    exact tunes_recorded ih (step_tunes hstep)

/-! ## The next block -/

/-- The calls that send a header list. -/
def headersOf : Call → Option (List HeaderField)
  | .startStream headers _ | .sendResponse _ headers _ | .sendTrailers _ headers => some headers
  | _ => none

/-- The octets of the header block among these items, which come most recent first. -/
def octets (items : List Item) : Bytes :=
  items.reverse.flatMap fun
    | .sent (.headers f) => f.headerBlockFragment
    | .sent (.continuation f) => f.headerBlockFragment
    | _ => []

theorem octets_append (later items : List Item) : octets (later ++ items) = octets items ++ octets later := by
  simp [octets]

/-- A block left, and begins with the updates that the connection kept. -/
def Leaves (c : Core) (headers : List HeaderField) (c' : Core) : Prop :=
  ∃ new, c'.trace = new ++ c.trace ∧ octets new =
    (signalled c.pendingTableSizeUpdate).flatMap sizeUpdate ++ (c.hpackEncoder.encode headers).2

theorem sendBlock_leaves (c : Core) (sid : Nat) (headers : List HeaderField) (endStream : Bool) :
    Leaves c headers (c.sendBlock sid headers endStream) := by
  have hmax : 0 < c.remoteSettings.maxFrameSize.val := by
    have := c.remoteSettings.maxFrameSize.2.1
    omega
  obtain ⟨first, rest, hframes, hfrag⟩ := blockFrames_spec sid endStream
    ((c.hpackEncoder.encode headers).1.encodePending c.pendingTableSizeUpdate ++
      (c.hpackEncoder.encode headers).2) hmax
  refine ⟨((Frame.headers first :: rest.map .continuation).map Item.sent).reverse ++
    [.encoded sid headers], ?_, ?_⟩
  · rw [Core.sendBlock, Core.logSent_eq, hframes, List.append_assoc]
    rfl
  · rw [octets_append, ← encodePending_eq (c.hpackEncoder.encode headers).1, ← hfrag.joined]
    simp [octets, List.flatMap_map]

/-- The same from a state that only recorded something else, and that records the end of the stream
afterwards. -/
theorem close_leaves {c base : Core} (items : List Item) (sid : Nat) (headers : List HeaderField)
    (endStream closed : Bool) (hpending : base.pendingTableSizeUpdate = c.pendingTableSizeUpdate)
    (hencoder : base.hpackEncoder = c.hpackEncoder) (htrace : base.trace = items ++ c.trace)
    (hitems : octets items = []) :
    Leaves c headers ((base.sendBlock sid headers endStream).closeIf sid closed) := by
  obtain ⟨new, hnew, hoctets⟩ := sendBlock_leaves base sid headers endStream
  rw [htrace, ← List.append_assoc] at hnew
  rw [hpending, hencoder] at hoctets
  have hjoined : octets (new ++ items) = octets new := by rw [octets_append, hitems, List.nil_append]
  cases closed with
  | true =>
    refine ⟨.event (.streamClosed sid) :: (new ++ items), congrArg _ hnew, ?_⟩
    rw [← hoctets, ← hjoined]
    exact (octets_append [_] _).trans (List.append_nil _)
  | false => exact ⟨new ++ items, hnew, hjoined.trans hoctets⟩

theorem start_leaves {c c' : Core} {headers : List HeaderField} {endStream : Bool}
    (h : Start c headers endStream c') : Leaves c headers c' := by
  cases h with
  | request s =>
    exact close_leaves [.opened c.nextStreamId] c.nextStreamId headers endStream false rfl rfl rfl rfl

theorem calm_leaves {c c' : Core} {k : Call} {headers : List HeaderField}
    (hk : headersOf k = some headers) (h : Calm c (.api k) c') : Leaves c headers c' := by
  cases h with
  | respond sid headers' endStream =>
    obtain rfl := Option.some.inj hk
    exact close_leaves [] sid headers' endStream _ rfl rfl rfl rfl
  | trail sid headers' =>
    obtain rfl := Option.some.inj hk
    exact close_leaves [] sid headers' true _ rfl rfl rfl rfl
  | announce _ hl =>
    obtain rfl | rfl := hl
    · cases hk
    · cases hk
  | credit _ _ hl =>
    obtain hl | hl := hl
    · cases hl
    · cases hl
      cases hk
  | _ => cases hk

theorem exec_leaves {c : Connection} {k : Call} {headers : List HeaderField}
    (hk : headersOf k = some headers) :
    Ensures k.exec c fun r c' => ∀ v, r = .ok v → Leaves c.toCore headers c'.toCore := by
  cases k with
  | startStream headers' endStream =>
    obtain rfl := Option.some.inj hk
    refine ensures_map (startStream_spec headers' endStream c) ?_ fun _ _ _ _ h => by cases h
    rintro sid c' ⟨_, hstart⟩ _ _
    exact start_leaves hstart
  | sendResponse sid headers' endStream =>
    refine ensures_map (sendResponse_spec sid headers' endStream c) ?_ fun _ _ _ _ h => by cases h
    exact fun _ _ hcalm _ _ => calm_leaves hk hcalm
  | sendTrailers sid headers' =>
    refine ensures_map (sendTrailers_spec sid headers' c) ?_ fun _ _ _ _ h => by cases h
    exact fun _ _ hcalm _ _ => calm_leaves hk hcalm
  | _ => cases hk

theorem leaves_announces_iff {c c' : Core} {headers : List HeaderField} (h : Recorded c.tuning)
    (hleaves : Leaves c headers c') :
    ∃ new, c'.trace = new ++ c.trace ∧
      (Announces (before c.trace) (received (frames c.trace)) c.hpackEncoder.dynamicTable.size
        (octets new) (c.hpackEncoder.encode headers).2 ↔ Tracked (before c.trace) (frames c.trace)) := by
  obtain ⟨new, hnew, hoctets⟩ := hleaves
  obtain ⟨_, hpending, _, hevicted⟩ := h
  simp only [Core.tuning, frames_marks, before_marks] at hpending hevicted
  refine ⟨new, hnew, announces_iff ?_ hevicted ?_⟩
  · intro v hv
    obtain ⟨frame, _, hv⟩ := List.mem_flatMap.1 hv
    obtain ⟨setting, _, hvalue⟩ := List.mem_filterMap.1 hv
    split at hvalue
    · obtain rfl := Option.some.inj hvalue
      exact UInt32.toNat_lt _
    · cases hvalue
  · rw [hoctets, hpending]

section Run

variable {role : Role} {limits : Limits} {history : List Record} {c c' : Connection} {k : Call}
  {headers : List HeaderField} {v : Value}

theorem run_leaves (h : Run (Connection.new role limits) history c) (hsound : Sound history)
    (hk : headersOf k = some headers) (hexec : k.exec c = (.ok v, c')) :
    Recorded c.tuning ∧ Leaves c.toCore headers c'.toCore := by
  refine ⟨steps_recorded (new_recorded role limits) (run_course h.any hsound).steps, ?_⟩
  have hleaves := exec_leaves (c := c) hk
  rw [Ensures, hexec] at hleaves
  exact hleaves v rfl

/-- A block announces what the values since the last one ask for exactly where the smallest of them
ends its frame and changes the size there. -/
theorem block_announces_iff (h : Run (Connection.new role limits) history c) (hsound : Sound history)
    (hk : headersOf k = some headers) (hexec : k.exec c = (.ok v, c')) :
    ∃ new, c'.trace = new ++ c.trace ∧
      (Announces (before c.trace) (received (frames c.trace)) c.hpackEncoder.dynamicTable.size
        (octets new) (c.hpackEncoder.encode headers).2 ↔ Tracked (before c.trace) (frames c.trace)) := by
  obtain ⟨hrecorded, hleaves⟩ := run_leaves h hsound hk hexec
  exact leaves_announces_iff hrecorded hleaves

end Run

/-- A client whose peer sends these frames, before its first request. -/
def settingsCalls (frames : List (List Setting)) : List Call :=
  [.feed (frames.flatMap fun settings => Frame.wire (.settings ⟨false, settings⟩)), .process .listed]

/-- The table is emptied and grows again, in two frames. -/
theorem block_announces_iff_two :
    ∃ history c v c' new, Run (Connection.new .client .default) history c ∧ Sound history ∧
      (Call.startStream getRequest true).exec c = (.ok v, c') ∧ c'.trace = new ++ c.trace ∧
      received (frames c.trace) = [0, 8192] ∧
      (Announces (before c.trace) (received (frames c.trace)) c.hpackEncoder.dynamicTable.size
        (octets new) (c.hpackEncoder.encode getRequest).2 ↔
          Tracked (before c.trace) (frames c.trace)) := by
  have hrun := Run.execAll (c := Connection.new .client .default) .start
    (settingsCalls [[.headerTableSize 0], [.headerTableSize 8192]])
  have hsound : Sound (execAll (settingsCalls [[.headerTableSize 0], [.headerTableSize 8192]]) []
    (Connection.new .client .default)).1 := by
    unfold Sound
    decide +kernel
  have hok : ((Call.startStream getRequest true).exec (execAll (settingsCalls [[.headerTableSize 0],
      [.headerTableSize 8192]]) [] (Connection.new .client .default)).2).1 = .ok (.streamId 1) := by
    decide +kernel
  have hexec := Prod.mk.eta.symm.trans (congrArg (·, _) hok)
  obtain ⟨new, hnew, hiff⟩ := block_announces_iff hrun hsound (k := .startStream getRequest true) rfl hexec
  exact ⟨_, _, _, _, new, hrun, hsound, hexec, hnew, by decide +kernel, hiff⟩

/-- In one frame that happens unseen. -/
theorem block_announces_any_false :
    ∃ history c v c' new, Run (Connection.new .client .default) history c ∧ Sound history ∧
      (Call.startStream getRequest true).exec c = (.ok v, c') ∧ c'.trace = new ++ c.trace ∧
      received (frames c.trace) = [0, 4096] ∧
      ¬ Announces (before c.trace) (received (frames c.trace)) c.hpackEncoder.dynamicTable.size
        (octets new) (c.hpackEncoder.encode getRequest).2 := by
  have hrun := Run.execAll (c := Connection.new .client .default) .start
    (settingsCalls [[.headerTableSize 0, .headerTableSize 4096]])
  have hsound : Sound (execAll (settingsCalls [[.headerTableSize 0, .headerTableSize 4096]]) []
    (Connection.new .client .default)).1 := by
    unfold Sound
    decide +kernel
  have hok : ((Call.startStream getRequest true).exec (execAll (settingsCalls [[.headerTableSize 0,
      .headerTableSize 4096]]) [] (Connection.new .client .default)).2).1 = .ok (.streamId 1) := by
    decide +kernel
  have hexec := Prod.mk.eta.symm.trans (congrArg (·, _) hok)
  obtain ⟨hrecorded, hleaves⟩ := run_leaves hrun hsound (k := .startStream getRequest true) rfl hexec
  obtain ⟨new, hnew, hiff⟩ := leaves_announces_iff hrecorded hleaves
  refine ⟨_, _, _, _, new, hrun, hsound, hexec, hnew, by decide +kernel, fun h => ?_⟩
  have hframes : frames (execAll (settingsCalls [[.headerTableSize 0, .headerTableSize 4096]]) []
      (Connection.new .client .default)).2.trace = [[.headerTableSize 0, .headerTableSize 4096]] := by
    decide +kernel
  have htracked := hiff.1 h
  rw [hframes] at htracked
  obtain hall | ⟨earlier, frame, later, hsplit, least, hlast, hleast, _⟩ := htracked
  · have hsame : 0 = 4096 := (hall 0 (by decide)).trans (hall 4096 (by decide)).symm
    omega
  · obtain ⟨rfl, rfl, rfl⟩ : earlier = [] ∧ [.headerTableSize 0, .headerTableSize 4096] = frame ∧
        later = [] := by
      cases earlier with
      | nil => simpa [and_comm] using hsplit
      | cons first earlier => simp at hsplit
    have hle := hleast 0 (by decide)
    obtain rfl : 4096 = least := Option.some.inj hlast
    omega

end Http2.TableSize
