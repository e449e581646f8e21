import Http2.Error

/-! SETTINGS parameters (`src/settings.rs`) and the limits an application chooses
(`src/limits.rs`). -/
namespace Http2

/-- `WindowSize`: at most 2^31 - 1. -/
abbrev WindowSize := { n : Nat // n ≤ 2147483647 }

/-- `MaxFrameSize`: between 2^14 and 2^24 - 1. -/
abbrev MaxFrameSize := { n : Nat // 16384 ≤ n ∧ n ≤ 16777215 }

def WindowSize.new (size : Nat) : Except SettingError WindowSize :=
  if h : size ≤ 2147483647 then .ok ⟨size, h⟩
  else .error (.initialWindowSizeOutOfRange size 2147483647)

def MaxFrameSize.new (size : Nat) : Except SettingError MaxFrameSize :=
  if h : 16384 ≤ size ∧ size ≤ 16777215 then .ok ⟨size, h⟩
  else .error (.maxFrameSizeOutOfRange size 16384 16777215)

/-- `DEFAULT_INITIAL_WINDOW_SIZE`. -/
def defaultInitialWindowSize : Nat := 65535

inductive Setting
  | headerTableSize (v : UInt32)
  | enablePush (b : Bool)
  | maxConcurrentStreams (v : UInt32)
  | initialWindowSize (v : WindowSize)
  | maxFrameSize (v : MaxFrameSize)
  | maxHeaderListSize (v : UInt32)
  | enableConnectProtocol (b : Bool)
  | noRfc7540Priorities (b : Bool)
  | wtInitialMaxData (v : UInt32)
  | wtInitialMaxStreamDataUni (v : UInt32)
  | wtInitialMaxStreamDataBidiLocal (v : UInt32)
  | wtInitialMaxStreamsUni (v : UInt32)
  | wtInitialMaxStreamsBidi (v : UInt32)
  | wtInitialMaxStreamDataBidiRemote (v : UInt32)
  | wtEnabled (b : Bool)
  | unknown (id : UInt16) (value : UInt32)
  deriving DecidableEq, Repr

namespace Setting

/-- A parameter that must be 0 or 1. -/
def boolean (value : UInt32) (mk : Bool → Setting) (err : Nat → SettingError) :
    Except SettingError Setting :=
  if value > 1 then .error (err value.toNat) else .ok (mk (value == 1))

def fromWire (id : UInt16) (value : UInt32) : Except SettingError Setting :=
  if id = 0x01 then .ok (.headerTableSize value)
  else if id = 0x02 then boolean value .enablePush .enablePushNotBoolean
  else if id = 0x03 then .ok (.maxConcurrentStreams value)
  else if id = 0x04 then (WindowSize.new value.toNat).map .initialWindowSize
  else if id = 0x05 then (MaxFrameSize.new value.toNat).map .maxFrameSize
  else if id = 0x06 then .ok (.maxHeaderListSize value)
  else if id = 0x08 then boolean value .enableConnectProtocol .enableConnectProtocolNotBoolean
  else if id = 0x09 then boolean value .noRfc7540Priorities .noRfc7540PrioritiesNotBoolean
  else if id = 0x2b61 then .ok (.wtInitialMaxData value)
  else if id = 0x2b62 then .ok (.wtInitialMaxStreamDataUni value)
  else if id = 0x2b63 then .ok (.wtInitialMaxStreamDataBidiLocal value)
  else if id = 0x2b64 then .ok (.wtInitialMaxStreamsUni value)
  else if id = 0x2b65 then .ok (.wtInitialMaxStreamsBidi value)
  else if id = 0x2b66 then .ok (.wtInitialMaxStreamDataBidiRemote value)
  else if id = 0x2b67 then boolean value .wtEnabled .wtEnabledNotBoolean
  else .ok (.unknown id value)

def asWire : Setting → UInt16 × UInt32
  | headerTableSize v => (0x01, v)
  | enablePush b => (0x02, if b then 1 else 0)
  | maxConcurrentStreams v => (0x03, v)
  | initialWindowSize v => (0x04, UInt32.ofNat v)
  | maxFrameSize v => (0x05, UInt32.ofNat v)
  | maxHeaderListSize v => (0x06, v)
  | enableConnectProtocol b => (0x08, if b then 1 else 0)
  | noRfc7540Priorities b => (0x09, if b then 1 else 0)
  | wtInitialMaxData v => (0x2b61, v)
  | wtInitialMaxStreamDataUni v => (0x2b62, v)
  | wtInitialMaxStreamDataBidiLocal v => (0x2b63, v)
  | wtInitialMaxStreamsUni v => (0x2b64, v)
  | wtInitialMaxStreamsBidi v => (0x2b65, v)
  | wtInitialMaxStreamDataBidiRemote v => (0x2b66, v)
  | wtEnabled b => (0x2b67, if b then 1 else 0)
  | unknown id value => (id, value)

/-- A parameter whose identifier is its own: `unknown` stands for no known one. -/
def WellFormed : Setting → Prop
  | unknown id _ => id ≠ 0x01 ∧ id ≠ 0x02 ∧ id ≠ 0x03 ∧ id ≠ 0x04 ∧ id ≠ 0x05 ∧ id ≠ 0x06 ∧
      id ≠ 0x08 ∧ id ≠ 0x09 ∧ id ≠ 0x2b61 ∧ id ≠ 0x2b62 ∧ id ≠ 0x2b63 ∧ id ≠ 0x2b64 ∧
      id ≠ 0x2b65 ∧ id ≠ 0x2b66 ∧ id ≠ 0x2b67
  | _ => True

theorem boolean_ite (b : Bool) (mk : Bool → Setting) (err : Nat → SettingError) :
    boolean (if b then 1 else 0) mk err = .ok (mk b) := by
  cases b <;> rfl

/-- The wire form of a parameter reads back. -/
theorem fromWire_asWire {s : Setting} (h : s.WellFormed) :
    fromWire s.asWire.1 s.asWire.2 = .ok s := by
  cases s with
  | initialWindowSize v =>
    have hv : v.val < 2 ^ 32 := Nat.lt_of_le_of_lt v.2 (by decide)
    have htoNat : (UInt32.ofNat v.val).toNat = v.val := by
      rw [UInt32.toNat_ofNat', Nat.mod_eq_of_lt hv]
    simp [fromWire, asWire, htoNat, WindowSize.new, v.2, Except.map]
  | maxFrameSize v =>
    have hv : v.val < 2 ^ 32 := Nat.lt_of_le_of_lt v.2.2 (by decide)
    have htoNat : (UInt32.ofNat v.val).toNat = v.val := by
      rw [UInt32.toNat_ofNat', Nat.mod_eq_of_lt hv]
    simp [fromWire, asWire, htoNat, MaxFrameSize.new, v.2, Except.map]
  | unknown id value =>
    simp only [WellFormed] at h
    simp [fromWire, asWire, h]
  | _ => simp [fromWire, asWire, boolean_ite]

/-! Known identifiers lead to parameters of their own, so `fromWire` yields no `unknown` one that it
would not yield again. -/

theorem boolean_ok {value : UInt32} {mk : Bool → Setting} {err : Nat → SettingError} {s : Setting}
    (h : boolean value mk err = .ok s) : ∃ b, s = mk b := by
  unfold boolean at h
  split at h
  · cases h
  · cases h
    exact ⟨_, rfl⟩

theorem map_ok {α : Type} {f : α → Setting} {x : Except SettingError α} {s : Setting}
    (h : x.map f = .ok s) : ∃ a, s = f a := by
  cases x with
  | error e => cases h
  | ok a =>
    cases h
    exact ⟨a, rfl⟩

/-- Where the known identifiers are ruled out one by one, the last branch is left. -/
theorem otherwise {c : Prop} [Decidable c] {x y : Except SettingError Setting} {s : Setting}
    (h : (if c then x else y) = .ok s) (hx : x ≠ .ok s) : ¬ c ∧ y = .ok s := by
  by_cases hc : c
  · rw [if_pos hc] at h
    exact absurd h hx
  · rw [if_neg hc] at h
    exact ⟨hc, h⟩

/-- An image of `fromWire` is written as what it was read from. -/
theorem wellFormed_of_fromWire {id : UInt16} {value : UInt32} {s : Setting}
    (h : fromWire id value = .ok s) : s.WellFormed := by
  cases s with
  | unknown id' value' =>
    have hboolean : ∀ mk err, (∀ b, mk b ≠ .unknown id' value') →
        boolean value mk err ≠ .ok (.unknown id' value') := by
      intro mk err hmk hok
      obtain ⟨b, hb⟩ := boolean_ok hok
      exact hmk b hb.symm
    have hmap : ∀ {α : Type} (f : α → Setting) (x : Except SettingError α),
        (∀ a, f a ≠ .unknown id' value') → x.map f ≠ .ok (.unknown id' value') := by
      intro α f x hf hok
      obtain ⟨a, ha⟩ := map_ok hok
      exact hf a ha.symm
    obtain ⟨h₁, h⟩ := otherwise h (by simp)
    obtain ⟨h₂, h⟩ := otherwise h (hboolean _ _ (by simp))
    obtain ⟨h₃, h⟩ := otherwise h (by simp)
    obtain ⟨h₄, h⟩ := otherwise h (hmap _ _ (by simp))
    obtain ⟨h₅, h⟩ := otherwise h (hmap _ _ (by simp))
    obtain ⟨h₆, h⟩ := otherwise h (by simp)
    obtain ⟨h₇, h⟩ := otherwise h (hboolean _ _ (by simp))
    obtain ⟨h₈, h⟩ := otherwise h (hboolean _ _ (by simp))
    obtain ⟨h₉, h⟩ := otherwise h (by simp)
    obtain ⟨h₁₀, h⟩ := otherwise h (by simp)
    obtain ⟨h₁₁, h⟩ := otherwise h (by simp)
    obtain ⟨h₁₂, h⟩ := otherwise h (by simp)
    obtain ⟨h₁₃, h⟩ := otherwise h (by simp)
    obtain ⟨h₁₄, h⟩ := otherwise h (by simp)
    obtain ⟨h₁₅, h⟩ := otherwise h (hboolean _ _ (by simp))
    cases h
    exact ⟨h₁, h₂, h₃, h₄, h₅, h₆, h₇, h₈, h₉, h₁₀, h₁₁, h₁₂, h₁₃, h₁₄, h₁₅⟩
  | _ => trivial
end Setting

structure Settings where
  headerTableSize : UInt32
  enablePush : Bool
  maxConcurrentStreams : Option UInt32
  initialWindowSize : WindowSize
  maxFrameSize : MaxFrameSize
  maxHeaderListSize : Option UInt32
  enableConnectProtocol : Bool
  noRfc7540Priorities : Bool
  wtInitialMaxData : Option UInt32
  wtInitialMaxStreamDataUni : Option UInt32
  wtInitialMaxStreamDataBidiLocal : Option UInt32
  wtInitialMaxStreamsUni : Option UInt32
  wtInitialMaxStreamsBidi : Option UInt32
  wtInitialMaxStreamDataBidiRemote : Option UInt32
  wtEnabled : Bool
  deriving DecidableEq, Repr

/-- `Limits`. Its builder refuses a connection window below the protocol's initial one, and
WebTransport parameters without the settings they depend on. -/
structure Limits where
  maxConcurrentStreams : Option UInt32
  initialWindowSize : WindowSize
  maxFrameSize : MaxFrameSize
  maxHeaderListSize : Option UInt32
  headerTableSize : UInt32
  connectionWindowSize : WindowSize
  enableConnectProtocol : Bool
  noRfc7540Priorities : Bool
  wtEnabled : Bool
  wtInitialMaxData : Option UInt32
  wtInitialMaxStreamDataUni : Option UInt32
  wtInitialMaxStreamDataBidiLocal : Option UInt32
  wtInitialMaxStreamsUni : Option UInt32
  wtInitialMaxStreamsBidi : Option UInt32
  wtInitialMaxStreamDataBidiRemote : Option UInt32
  window_ge : defaultInitialWindowSize ≤ connectionWindowSize
  connect_of_wt : wtEnabled = true → enableConnectProtocol = true
  wt_of_settings : wtInitialMaxData.isSome || wtInitialMaxStreamDataUni.isSome ||
    wtInitialMaxStreamDataBidiLocal.isSome || wtInitialMaxStreamsUni.isSome ||
    wtInitialMaxStreamsBidi.isSome || wtInitialMaxStreamDataBidiRemote.isSome → wtEnabled = true

/-- `Limits::default`. -/
def Limits.default : Limits where
  maxConcurrentStreams := some 100
  initialWindowSize := ⟨65535, by decide⟩
  maxFrameSize := ⟨16384, by decide⟩
  maxHeaderListSize := some 16384
  headerTableSize := 4096
  connectionWindowSize := ⟨65535, by decide⟩
  enableConnectProtocol := false
  noRfc7540Priorities := false
  wtEnabled := false
  wtInitialMaxData := none
  wtInitialMaxStreamDataUni := none
  wtInitialMaxStreamDataBidiLocal := none
  wtInitialMaxStreamsUni := none
  wtInitialMaxStreamsBidi := none
  wtInitialMaxStreamDataBidiRemote := none
  window_ge := by decide
  connect_of_wt := by decide
  wt_of_settings := by decide

namespace Settings

/-- `Settings::new`: the values in force before the peer's first SETTINGS. -/
def new : Settings where
  headerTableSize := 4096
  enablePush := false
  maxConcurrentStreams := none
  initialWindowSize := ⟨65535, by decide⟩
  maxFrameSize := ⟨16384, by decide⟩
  maxHeaderListSize := none
  enableConnectProtocol := false
  noRfc7540Priorities := false
  wtInitialMaxData := none
  wtInitialMaxStreamDataUni := none
  wtInitialMaxStreamDataBidiLocal := none
  wtInitialMaxStreamsUni := none
  wtInitialMaxStreamsBidi := none
  wtInitialMaxStreamDataBidiRemote := none
  wtEnabled := false

def fromLimits (limits : Limits) : Settings where
  headerTableSize := limits.headerTableSize
  enablePush := false
  maxConcurrentStreams := limits.maxConcurrentStreams
  initialWindowSize := limits.initialWindowSize
  maxFrameSize := limits.maxFrameSize
  maxHeaderListSize := limits.maxHeaderListSize
  enableConnectProtocol := limits.enableConnectProtocol
  noRfc7540Priorities := limits.noRfc7540Priorities
  wtInitialMaxData := limits.wtInitialMaxData
  wtInitialMaxStreamDataUni := limits.wtInitialMaxStreamDataUni
  wtInitialMaxStreamDataBidiLocal := limits.wtInitialMaxStreamDataBidiLocal
  wtInitialMaxStreamsUni := limits.wtInitialMaxStreamsUni
  wtInitialMaxStreamsBidi := limits.wtInitialMaxStreamsBidi
  wtInitialMaxStreamDataBidiRemote := limits.wtInitialMaxStreamDataBidiRemote
  wtEnabled := limits.wtEnabled

def apply (s : Settings) : Setting → Settings
  | .headerTableSize v => { s with headerTableSize := v }
  | .enablePush b => { s with enablePush := b }
  | .maxConcurrentStreams v => { s with maxConcurrentStreams := some v }
  | .initialWindowSize v => { s with initialWindowSize := v }
  | .maxFrameSize v => { s with maxFrameSize := v }
  | .maxHeaderListSize v => { s with maxHeaderListSize := some v }
  | .enableConnectProtocol b => { s with enableConnectProtocol := b }
  | .noRfc7540Priorities b => { s with noRfc7540Priorities := b }
  | .wtInitialMaxData v => { s with wtInitialMaxData := some v }
  | .wtInitialMaxStreamDataUni v => { s with wtInitialMaxStreamDataUni := some v }
  | .wtInitialMaxStreamDataBidiLocal v => { s with wtInitialMaxStreamDataBidiLocal := some v }
  | .wtInitialMaxStreamsUni v => { s with wtInitialMaxStreamsUni := some v }
  | .wtInitialMaxStreamsBidi v => { s with wtInitialMaxStreamsBidi := some v }
  | .wtInitialMaxStreamDataBidiRemote v => { s with wtInitialMaxStreamDataBidiRemote := some v }
  | .wtEnabled b => { s with wtEnabled := b }
  | .unknown _ _ => s

/-- The parameters to send, in the order of their identifiers; a flag other than `enable_push` is
sent only when it is set. -/
def toSettingsList (s : Settings) : List Setting :=
  [.headerTableSize s.headerTableSize, .enablePush s.enablePush]
    ++ (s.maxConcurrentStreams.map .maxConcurrentStreams).toList
    ++ [.initialWindowSize s.initialWindowSize, .maxFrameSize s.maxFrameSize]
    ++ (s.maxHeaderListSize.map .maxHeaderListSize).toList
    ++ (if s.enableConnectProtocol then [.enableConnectProtocol true] else [])
    ++ (if s.noRfc7540Priorities then [.noRfc7540Priorities true] else [])
    ++ (s.wtInitialMaxData.map .wtInitialMaxData).toList
    ++ (s.wtInitialMaxStreamDataUni.map .wtInitialMaxStreamDataUni).toList
    ++ (s.wtInitialMaxStreamDataBidiLocal.map .wtInitialMaxStreamDataBidiLocal).toList
    ++ (s.wtInitialMaxStreamsUni.map .wtInitialMaxStreamsUni).toList
    ++ (s.wtInitialMaxStreamsBidi.map .wtInitialMaxStreamsBidi).toList
    ++ (s.wtInitialMaxStreamDataBidiRemote.map .wtInitialMaxStreamDataBidiRemote).toList
    ++ (if s.wtEnabled then [.wtEnabled true] else [])

/-! ## Parameters that are applied in turn -/

/-- A parameter that is sent only when it has a value. -/
theorem foldl_option (mk : UInt32 → Setting) (read : Settings → Option UInt32)
    (write : Settings → Option UInt32 → Settings) (hmk : ∀ s v, s.apply (mk v) = write s (some v))
    (hread : ∀ s, write s (read s) = s) (o : Option UInt32) (s : Settings) :
    (o.map mk).toList.foldl apply s = write s (o.or (read s)) := by
  cases o with
  | none => exact (hread s).symm
  | some v => exact hmk s v

/-- A flag that is sent only when it is set. -/
theorem foldl_flag (x : Setting) (read : Settings → Bool) (write : Settings → Bool → Settings)
    (hx : ∀ s, s.apply x = write s true) (hread : ∀ s, write s (read s) = s) (b : Bool) (s : Settings) :
    (if b then [x] else []).foldl apply s = write s (b || read s) := by
  cases b with
  | false => exact (hread s).symm
  | true => exact hx s

/-- Over the defaults the parameters to send make the values that they stand for. -/
theorem foldl_toSettingsList (s : Settings) : s.toSettingsList.foldl apply new = s := by
  simp only [toSettingsList, List.foldl_append, List.foldl_cons, List.foldl_nil, apply, new,
    Option.or_none, Bool.or_false,
    foldl_option .maxConcurrentStreams Settings.maxConcurrentStreams
      (fun t v => { t with maxConcurrentStreams := v }) (fun _ _ => rfl) (fun _ => rfl),
    foldl_option .maxHeaderListSize Settings.maxHeaderListSize
      (fun t v => { t with maxHeaderListSize := v }) (fun _ _ => rfl) (fun _ => rfl),
    foldl_flag (.enableConnectProtocol true) Settings.enableConnectProtocol
      (fun t v => { t with enableConnectProtocol := v }) (fun _ => rfl) (fun _ => rfl),
    foldl_flag (.noRfc7540Priorities true) Settings.noRfc7540Priorities
      (fun t v => { t with noRfc7540Priorities := v }) (fun _ => rfl) (fun _ => rfl),
    foldl_option .wtInitialMaxData Settings.wtInitialMaxData
      (fun t v => { t with wtInitialMaxData := v }) (fun _ _ => rfl) (fun _ => rfl),
    foldl_option .wtInitialMaxStreamDataUni Settings.wtInitialMaxStreamDataUni
      (fun t v => { t with wtInitialMaxStreamDataUni := v }) (fun _ _ => rfl) (fun _ => rfl),
    foldl_option .wtInitialMaxStreamDataBidiLocal Settings.wtInitialMaxStreamDataBidiLocal
      (fun t v => { t with wtInitialMaxStreamDataBidiLocal := v }) (fun _ _ => rfl) (fun _ => rfl),
    foldl_option .wtInitialMaxStreamsUni Settings.wtInitialMaxStreamsUni
      (fun t v => { t with wtInitialMaxStreamsUni := v }) (fun _ _ => rfl) (fun _ => rfl),
    foldl_option .wtInitialMaxStreamsBidi Settings.wtInitialMaxStreamsBidi
      (fun t v => { t with wtInitialMaxStreamsBidi := v }) (fun _ _ => rfl) (fun _ => rfl),
    foldl_option .wtInitialMaxStreamDataBidiRemote Settings.wtInitialMaxStreamDataBidiRemote
      (fun t v => { t with wtInitialMaxStreamDataBidiRemote := v }) (fun _ _ => rfl) (fun _ => rfl),
    foldl_flag (.wtEnabled true) Settings.wtEnabled
      (fun t v => { t with wtEnabled := v }) (fun _ => rfl) (fun _ => rfl)]

/-- What a parameter that is sent may say. -/
def Sends (s : Settings) : Setting → Prop
  | .enablePush b => b = s.enablePush
  | .enableConnectProtocol b | .noRfc7540Priorities b => b = true
  | .unknown _ _ => False
  | _ => True

theorem sends_of_mem {s : Settings} {x : Setting} (h : x ∈ s.toSettingsList) : s.Sends x := by
  cases x with
  | enablePush b => simpa [toSettingsList, Sends] using h
  | enableConnectProtocol b =>
    have hb : s.enableConnectProtocol = true ∧ b = true := by simpa [toSettingsList] using h
    exact hb.2
  | noRfc7540Priorities b =>
    have hb : s.noRfc7540Priorities = true ∧ b = true := by simpa [toSettingsList] using h
    exact hb.2
  | unknown id value => simp [toSettingsList] at h
  | _ => trivial

/-- What is sent is in force already. -/
theorem apply_of_mem {s : Settings} {x : Setting} (h : x ∈ s.toSettingsList) : s.apply x = s := by
  obtain ⟨⟩ := s
  cases x with
  | unknown id value => rfl
  | _ =>
    simp [toSettingsList] at h
    simp [apply, h]

theorem length_toSettingsList (s : Settings) : s.toSettingsList.length ≤ 15 := by
  have hoption : ∀ (o : Option UInt32) (mk : UInt32 → Setting), (o.map mk).toList.length ≤ 1 := by
    intro o mk
    cases o <;> simp
  have hflag : ∀ (b : Bool) (x : Setting), (if b then [x] else []).length ≤ 1 := by
    intro b x
    cases b <;> simp
  simp only [toSettingsList, List.length_append, List.length_cons, List.length_nil]
  change _ ≤ 2 + 1 + 2 + 1 + 1 + 1 + 1 + 1 + 1 + 1 + 1 + 1 + 1
  repeat' first
    | exact hoption _ _
    | exact hflag _ _
    | exact Nat.le_refl _
    | apply Nat.add_le_add

end Settings

end Http2
