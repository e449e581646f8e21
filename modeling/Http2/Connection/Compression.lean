import Http2.Connection.Pair
import Http2.Hpack.Following

/-! The header blocks that a side sends and receives, beside the lists that go into them and come out. -/
namespace Http2.Compression

open Hpack Lib Connection
open Negotiation (frames)

/-! ## Blocks -/

/-- What a frame adds to a header block, and whether that ends it. -/
def fragment : Frame → Option (Bytes × Bool)
  | .headers f => some (f.headerBlockFragment, f.endHeaders)
  | .continuation f => some (f.headerBlockFragment, f.endHeaders)
  | _ => none

/-- The blocks that are whole, and what there is of the next one. -/
def gather (s : List Bytes × Bytes) (f : Frame) : List Bytes × Bytes :=
  match fragment f with
  | some (piece, true) => (s.1 ++ [s.2 ++ piece], [])
  | some (piece, false) => (s.1, s.2 ++ piece)
  | none => s

def blocks (fs : List Frame) : List Bytes × Bytes := fs.foldl gather ([], [])

/-- The blocks that were sent. -/
def sent : List Item → List Bytes × Bytes
  | [] => ([], [])
  | .sent f :: earlier => gather (sent earlier) f
  | _ :: earlier => sent earlier

/-- The blocks that were received. -/
def received : List Item → List Bytes × Bytes
  | [] => ([], [])
  | .received f :: earlier => gather (received earlier) f
  | _ :: earlier => received earlier

/-- The header lists that were encoded, the first one first. -/
def encoded : List Item → List (List HeaderField)
  | [] => []
  | .encoded _ headers :: earlier => encoded earlier ++ [headers]
  | _ :: earlier => encoded earlier

/-- The header lists that were decoded, the first one first. -/
def decoded : List Item → List (List HeaderField)
  | [] => []
  | .decoded _ headers :: earlier => decoded earlier ++ [headers]
  | _ :: earlier => decoded earlier

/-- The header lists that were encoded before the first SETTINGS came. -/
def early : List Item → List (List HeaderField)
  | [] => []
  | .encoded _ headers :: earlier => if frames earlier = [] then early earlier ++ [headers] else early earlier
  | _ :: earlier => early earlier

theorem fragment_headers {f : HeadersFrame} {last : Bool} (h : f.endHeaders = last) :
    fragment (.headers f) = some (f.headerBlockFragment, last) := by rw [fragment, h]

theorem fragment_continuation {f : ContinuationFrame} {last : Bool} (h : f.endHeaders = last) :
    fragment (.continuation f) = some (f.headerBlockFragment, last) := by rw [fragment, h]

section Gather

variable {f : Frame} {piece : Bytes} (s : List Bytes × Bytes)

theorem gather_more (h : fragment f = some (piece, false)) : gather s f = (s.1, s.2 ++ piece) := by
  rw [gather, h]

theorem gather_last (h : fragment f = some (piece, true)) : gather s f = (s.1 ++ [s.2 ++ piece], []) := by
  rw [gather, h]

end Gather

theorem blocks_snoc (fs : List Frame) (f : Frame) : blocks (fs ++ [f]) = gather (blocks fs) f := by
  rw [blocks, List.foldl_append]
  rfl

theorem sent_eq (items : List Item) : sent items = blocks (Wire.sentFrames items) := by
  induction items with
  | nil => rfl
  | cons i items ih =>
    cases i with
    | sent f => rw [sent, ih, Wire.sentFrames, blocks_snoc]
    | _ => exact ih

theorem received_eq (items : List Item) : received items = blocks (Wire.receivedFrames items) := by
  induction items with
  | nil => rfl
  | cons i items ih =>
    cases i with
    | received f => rw [received, ih, Wire.receivedFrames, blocks_snoc]
    | _ => exact ih

/-- Later frames leave the blocks that are whole. -/
theorem foldl_gather (more : List Frame) (s : List Bytes × Bytes) : s.1 <+: (more.foldl gather s).1 := by
  induction more generalizing s with
  | nil => exact List.prefix_refl _
  | cons f more ih =>
    refine List.IsPrefix.trans ?_ (ih (gather s f))
    unfold gather
    split
    · exact List.prefix_append _ _
    · exact List.prefix_refl _
    · exact List.prefix_refl _

theorem blocks_append (fs more : List Frame) : (blocks fs).1 <+: (blocks (fs ++ more)).1 := by
  rw [blocks, blocks, List.foldl_append]
  exact foldl_gather more _

section Fragments

variable {rest : List ContinuationFrame} {whole : List Bytes} {part : Bytes}

theorem foldl_continuations {n : Nat} (h : rest.map (·.endHeaders) = List.replicate n false ++ [true]) :
    (rest.map Frame.continuation).foldl gather (whole, part) =
      (whole ++ [part ++ rest.flatMap (·.headerBlockFragment)], []) := by
  induction rest generalizing n part with
  | nil => simp at h
  | cons f rest ih =>
    rw [List.map_cons, List.foldl_cons, List.flatMap_cons]
    rw [List.map_cons] at h
    cases n with
    | zero =>
      obtain ⟨hlast, hnone⟩ := List.cons.inj h
      obtain rfl := List.map_eq_nil_iff.1 hnone
      rw [gather_last _ (fragment_continuation hlast), List.flatMap_nil, List.append_nil]
      rfl
    | succ n =>
      obtain ⟨hmore, hrest⟩ := List.cons.inj h
      rw [gather_more _ (fragment_continuation hmore), ih hrest, List.append_assoc]

/-- HEADERS and the CONTINUATIONs after it make one block. -/
theorem foldl_fragmented {sid maxFrameSize : Nat} {endStream : Bool} {block : Bytes} {first : HeadersFrame}
    (h : Fragmented sid endStream maxFrameSize block first rest) :
    (Frame.headers first :: rest.map .continuation).foldl gather (whole, part) =
      (whole ++ [part ++ block], []) := by
  have hlast := h.last
  rw [List.foldl_cons, ← h.joined]
  cases rest with
  | nil =>
    obtain ⟨hend, _⟩ := List.cons.inj hlast
    rw [gather_last _ (fragment_headers hend), List.flatMap_nil, List.append_nil]
    rfl
  | cons f rest =>
    obtain ⟨hmore, hrest⟩ := List.cons.inj hlast
    rw [gather_more _ (fragment_headers hmore), foldl_continuations hrest, List.append_assoc]

end Fragments

/-! ## What a transition does to header blocks -/

/-- What header compression is about. -/
structure Coding where
  remoteSettings : Settings
  pendingTableSizeUpdate : PendingUpdate
  hpackEncoder : Encoder
  hpackDecoder : Decoder
  part : Bytes
  sent : List Bytes × Bytes
  received : List Bytes × Bytes
  encoded : List (List HeaderField)
  decoded : List (List HeaderField)
  announced : List (List Setting)
  early : List (List HeaderField)

/-- The part of a block that has come. -/
def part (c : Core) : Bytes :=
  match c.headerContinuationStream with
  | some _ => c.headerBlockFragment
  | none => []

@[simps] def coding (c : Core) : Coding where
  remoteSettings := c.remoteSettings
  pendingTableSizeUpdate := c.pendingTableSizeUpdate
  hpackEncoder := c.hpackEncoder
  hpackDecoder := c.hpackDecoder
  part := part c
  sent := sent c.trace
  received := received c.trace
  encoded := encoded c.trace
  decoded := decoded c.trace
  announced := frames c.trace
  early := early c.trace

/-- A list is sent on a stream that is there, or is a request. -/
def Speaks (c : Core) : Prop := c.role = .client ∨ ∃ sid, (c.stream? sid).isSome = true

/-- What transitions make of it; `speaks` says that a list may be sent. -/
inductive Codes (speaks : Prop) (k : Coding) : Coding → Prop
  | same : Codes speaks k k
  | settings (settings : List Setting) : Codes speaks k { k with
      remoteSettings := settings.foldl Settings.apply k.remoteSettings
      pendingTableSizeUpdate := trackTableSize k.remoteSettings.headerTableSize
        (settings.foldl Settings.apply k.remoteSettings).headerTableSize k.pendingTableSizeUpdate
      hpackEncoder := k.hpackEncoder.setMaxTableSize
        (settings.foldl Settings.apply k.remoteSettings).headerTableSize.toNat
      announced := k.announced ++ [settings] }
  | block (headers : List HeaderField) (hspeaks : speaks) : Codes speaks k { k with
      pendingTableSizeUpdate := none
      hpackEncoder := (k.hpackEncoder.encode headers).1
      sent := (k.sent.1 ++ [k.sent.2 ++ ((k.hpackEncoder.encode headers).1.encodePending
        k.pendingTableSizeUpdate ++ (k.hpackEncoder.encode headers).2)], [])
      encoded := k.encoded ++ [headers]
      early := if k.announced = [] then k.early ++ [headers] else k.early }
  | extend (piece : Bytes) : Codes speaks k { k with
      part := k.part ++ piece
      received := (k.received.1, k.received.2 ++ piece) }
  | complete (piece : Bytes) (headers : List HeaderField) (d : Decoder)
      (hdecode : k.hpackDecoder.decode (k.part ++ piece) = (.ok headers, d)) : Codes speaks k { k with
        hpackDecoder := d
        part := []
        received := (k.received.1 ++ [k.received.2 ++ piece], [])
        decoded := k.decoded ++ [headers] }

theorem logSent_coding (c : Core) (fs : List Frame) :
    coding (c.logSent fs) = { coding c with sent := fs.foldl gather (sent c.trace) } := by
  induction fs generalizing c with
  | nil => rfl
  | cons f fs ih =>
    rw [Core.logSent, ih]
    rfl

theorem sendBlock_codes {c : Core} {k : Coding} {speaks : Prop} (hc : coding c = k)
    (hspeaks : speaks) (sid : Nat)
    (headers : List HeaderField) (endStream : Bool) :
    Codes speaks k (coding (c.sendBlock sid headers endStream)) := by
  subst hc
  have hmax : 0 < c.remoteSettings.maxFrameSize.val := by
    have := c.remoteSettings.maxFrameSize.2.1
    omega
  obtain ⟨first, rest, hframes, hfrag⟩ := blockFrames_spec sid endStream
    ((c.hpackEncoder.encode headers).1.encodePending c.pendingTableSizeUpdate ++
      (c.hpackEncoder.encode headers).2) hmax
  have hsent : (Frame.headers first :: rest.map .continuation).foldl gather (sent c.trace) =
      ((sent c.trace).1 ++ [(sent c.trace).2 ++ _], []) := foldl_fragmented hfrag
  have hblock := Codes.block (k := coding c) headers hspeaks
  rw [Core.sendBlock, hframes, logSent_coding]
  refine Eq.subst (motive := fun s => Codes speaks (coding c) { coding c with
    pendingTableSizeUpdate := none
    hpackEncoder := (c.hpackEncoder.encode headers).1
    sent := s
    encoded := encoded c.trace ++ [headers]
    early := if frames c.trace = [] then early c.trace ++ [headers] else early c.trace }) hsent.symm hblock

theorem closeIf_coding (c : Core) (sid : Nat) (closed : Bool) : coding (c.closeIf sid closed) = coding c := by
  unfold Core.closeIf
  split <;> rfl

theorem resetWith_coding (c : Core) (sid : Nat) (code : ErrorCode) (consumed : Nat) :
    coding (c.resetWith sid code consumed) = coding c := rfl

theorem opens_coding {c base : Core} {sid : Nat} {s : Stream} (h : c.Opens sid s base) :
    coding base = coding c := by
  obtain ⟨_, rfl⟩ | ⟨_, _, rfl⟩ := h <;> rfl

theorem noteSuccessful_coding (c : Core) (sid : Nat) : coding (c.noteSuccessful sid) = coding c := rfl

theorem outcome_coding {c c' : Core} {sid : Nat} {raw : List HeaderField} {endStream : Bool}
    (h : Outcome sid raw endStream c c') : coding c' = coding c := by
  cases h with
  | ignored | gone => rfl
  | tunnel => exact resetWith_coding _ _ _ _
  | reset code _ _ hopens => rw [noteSuccessful_coding, resetWith_coding, opens_coding hopens]
  | headers protocol _ hopens =>
    rw [noteSuccessful_coding, closeIf_coding]
    refine Eq.trans ?_ (opens_coding hopens)
    rfl
  | trailers =>
    rw [noteSuccessful_coding, closeIf_coding]
    rfl

theorem receive_coding {c : Core} {f : Frame} (h : c.Inert f) : coding (c.log (.received f)) = coding c := by
  cases f with
  | settings f =>
    have hframes : frames (.received (.settings f) :: c.trace) = frames c.trace := if_pos h
    exact congrArg (fun a => { coding c with announced := a }) hframes
  | priority | ping | priorityUpdate | unknown | rstStream | windowUpdate => rfl
  | data | headers | pushPromise | continuation | goaway => cases h

theorem calm_codes {c c' : Core} {l : Label} (h : Calm c l c') : Codes (Speaks c) (coding c) (coding c') := by
  cases h with
  | receive f hinert =>
    rw [receive_coding hinert]
    exact .same
  | beginBlock f hcont hadmits hfirst =>
    have hpart : part c = [] := by rw [part, hcont]
    have hcodes : Codes (Speaks c) (coding c) _ := .extend f.headerBlockFragment
    rw [coding_part, hpart, List.nil_append] at hcodes
    have hnext : received (.received (.headers f) :: c.trace) =
        ((received c.trace).1, (received c.trace).2 ++ f.headerBlockFragment) :=
      gather_more _ (fragment_headers hfirst)
    rw [coding_received, ← hnext] at hcodes
    exact hcodes
  | extendBlock f hcont hmore =>
    have hpart : part c = c.headerBlockFragment := by rw [part, hcont]
    have hcodes : Codes (Speaks c) (coding c) _ := .extend f.headerBlockFragment
    have hnext : received (.received (.continuation f) :: c.trace) =
        ((received c.trace).1, (received c.trace).2 ++ f.headerBlockFragment) :=
      gather_more _ (fragment_continuation hmore)
    have hnow : part ((c.log (.received (.continuation f))).growBlock f.headerBlockFragment) =
        part c ++ f.headerBlockFragment := by
      rw [hpart]
      simp [part, hcont]
    rw [coding_received, ← hnext, coding_part, ← hnow] at hcodes
    exact hcodes
  | wholeBlock f headers d hcont _ hlast hdecode houtcome =>
    have hpart : part c = [] := by rw [part, hcont]
    rw [outcome_coding houtcome]
    have hcodes : Codes (Speaks c) (coding c) _ := .complete f.headerBlockFragment headers d
      (by rw [coding_part, hpart]; exact hdecode)
    have hnext : received (.received (.headers f) :: c.trace) =
        ((received c.trace).1 ++ [(received c.trace).2 ++ f.headerBlockFragment], []) :=
      gather_last _ (fragment_headers hlast)
    rw [coding_received, ← hnext, ← hpart] at hcodes
    exact hcodes
  | endBlock f headers d hcont hlast hdecode houtcome =>
    have hpart : part c = c.headerBlockFragment := by rw [part, hcont]
    rw [outcome_coding houtcome]
    have hcodes : Codes (Speaks c) (coding c) _ := .complete f.headerBlockFragment headers d
      (by rw [coding_part, hpart]; exact hdecode)
    have hnext : received (.received (.continuation f) :: c.trace) =
        ((received c.trace).1 ++ [(received c.trace).2 ++ f.headerBlockFragment], []) :=
      gather_last _ (fragment_continuation hlast)
    rw [coding_received, ← hnext] at hcodes
    exact hcodes
  | respond sid headers endStream hlive =>
    rw [closeIf_coding]
    exact sendBlock_codes (by rfl) (.inr ⟨sid, by simp [hlive]⟩) sid headers endStream
  | trail sid headers hlive =>
    rw [closeIf_coding]
    exact sendBlock_codes (by rfl) (.inr ⟨sid, by simp [hlive]⟩) sid headers true
  | deliverData =>
    rw [closeIf_coding]
    exact .same
  | reset | reject | tunnel | overflow | refuseData =>
    rw [resetWith_coding]
    exact .same
  | peerGoaway | notify | activate | pong | discardData | reportData | peerReset | resetGone | rejectGone
  | announce | ping | goaway | credit | creditStream | creditGone => exact .same

theorem step_codes {c c' : Core} {l : Label} (h : Step c l c') : Codes (Speaks c) (coding c) (coding c') := by
  cases h with
  | calm h => exact calm_codes h
  | wake h =>
    cases h with
    | update | updateStream => exact .same
    | settings f streams hack =>
      have hnot : ¬ f.ack = true := Bool.eq_false_iff.1 hack
      have hframes : frames (.sent (.settings ⟨true, []⟩) :: .received (.settings f) :: c.trace) =
          frames c.trace ++ [f.settings] := if_neg hnot
      have hcodes : Codes (Speaks c) (coding c) _ := .settings f.settings
      rw [coding_announced, ← hframes] at hcodes
      exact hcodes
  | emit h =>
    cases h with
    | chunk => exact .same
    | last =>
      rw [closeIf_coding]
      exact .same
  | start h =>
    cases h with
    | request s hrole => exact sendBlock_codes (by rfl) (.inl hrole) _ _ _
  | push h =>
    cases h with
    | queue => exact .same
    | emptyEnd =>
      rw [closeIf_coding]
      exact .same

/-! ## What is received is decoded -/

/-- The blocks received lead the decoder here, and gave these lists. -/
structure Heard (d : Decoder) (k : Coding) : Prop where
  replay : Hpack.replay d k.received.1 = some (k.decoded, k.hpackDecoder)
  part : k.part = k.received.2

theorem codes_heard {speaks : Prop} {d : Decoder} {k k' : Coding} (h : Heard d k)
    (hcodes : Codes speaks k k') : Heard d k' := by
  cases hcodes with
  | same | settings | block => exact ⟨h.replay, h.part⟩
  | extend piece => exact ⟨h.replay, congrArg (· ++ piece) h.part⟩
  | complete piece headers d' hdecode =>
    rw [h.part] at hdecode
    exact ⟨replay_snoc h.replay hdecode, rfl⟩

theorem steps_heard {T : Terms} {c d : Core} {e : Decoder} (h : Heard e (coding c)) (hsteps : Steps T c d) :
    Heard e (coding d) := by
  induction hsteps with
  | refl => exact h
  | tail _ hstep ih =>
    obtain ⟨l, _, hstep⟩ := hstep
    exact codes_heard ih (step_codes hstep)

/-! ## What is sent is decoded where it arrives -/

/-- What the sizes of a list ask of the peer. -/
def Fits (d : Decoder) (headers : List HeaderField) : Prop :=
  (∀ f ∈ headers, f.Representable) ∧
    ∀ m, d.maxHeaderListSize = some m → Budget.total HeaderField.size headers ≤ m

/-- The blocks sent lead the decoder `d` of the peer to one that the encoder leads, and give it the
lists that went in. The encoder starts with a table of `own` octets. -/
structure Spoken (own : Nat) (d : Decoder) (k : Coding) : Prop where
  replay : ∃ d', Hpack.replay d k.sent.1 = some (k.encoded, d') ∧
    Hpack.Leads d.maxTableSize k.hpackEncoder k.pendingTableSizeUpdate d' ∧
    d'.maxHeaderListSize = d.maxHeaderListSize
  whole : k.sent.2 = []
  remote : k.remoteSettings = k.announced.flatten.foldl Settings.apply Settings.new
  unheard : k.announced = [] → k.hpackEncoder.dynamicTable.maxSize = own
  heard : k.announced ≠ [] → k.hpackEncoder.dynamicTable.maxSize = d.maxTableSize

/-- The peer announces the table that it has, the lists are such as it takes, and a table larger than
that is not used before. -/
structure Proper (own : Nat) (d : Decoder) (k : Coding) : Prop where
  announced : k.announced ≠ [] →
    (k.announced.flatten.foldl Settings.apply Settings.new).headerTableSize.toNat = d.maxTableSize
  fits : ∀ headers ∈ k.encoded, Fits d headers
  timely : own ≤ d.maxTableSize ∨ k.early = []

section Spoken

variable {speaks : Prop} {own : Nat} {d : Decoder} {k k' : Coding}

theorem settings_spoken {settings : List Setting} (h : Spoken own d k)
    (hsize : (settings.foldl Settings.apply k.remoteSettings).headerTableSize.toNat = d.maxTableSize) :
    Spoken own d { k with
      remoteSettings := settings.foldl Settings.apply k.remoteSettings
      pendingTableSizeUpdate := trackTableSize k.remoteSettings.headerTableSize
        (settings.foldl Settings.apply k.remoteSettings).headerTableSize k.pendingTableSizeUpdate
      hpackEncoder := k.hpackEncoder.setMaxTableSize
        (settings.foldl Settings.apply k.remoteSettings).headerTableSize.toNat
      announced := k.announced ++ [settings] } := by
  obtain ⟨d', hreplay, hleads, hlimit⟩ := h.replay
  have hne : k.announced ++ [settings] ≠ [] := List.append_ne_nil_of_right_ne_nil _ (List.cons_ne_nil _ _)
  refine ⟨⟨d', hreplay, ?_, hlimit⟩, h.whole, ?_, fun hnone => absurd hnone hne, fun _ => hsize⟩
  · rw [hsize]
    apply hleads.resize
    rw [trackTableSize, hsize]
    split
    · exact .inr rfl
    · exact .inl rfl
  · rw [List.flatten_append, List.foldl_append, ← h.remote, List.flatten_singleton]

theorem codes_spoken (h : Spoken own d k) (hmax : d.maxTableSize < 2 ^ 32) (hproper : Proper own d k')
    (hcodes : Codes speaks k k') : Spoken own d k' := by
  cases hcodes with
  | same => exact h
  | settings settings =>
    apply settings_spoken h
    have hsize := hproper.announced (List.append_ne_nil_of_right_ne_nil _ (List.cons_ne_nil _ _))
    rw [List.flatten_append, List.foldl_append, ← h.remote, List.flatten_singleton] at hsize
    exact hsize
  | block headers =>
    obtain ⟨d', hreplay, hleads, hlimit⟩ := h.replay
    obtain ⟨hr, hlist⟩ := hproper.fits headers (List.mem_append_right _ List.mem_cons_self)
    -- A list that goes out before the first SETTINGS uses the table the encoder starts with.
    have hsize : k.hpackEncoder.dynamicTable.maxSize ≤ d.maxTableSize := by
      by_cases hnone : k.announced = []
      · rw [h.unheard hnone]
        refine hproper.timely.resolve_right fun hearly => ?_
        rw [if_pos hnone] at hearly
        exact List.append_ne_nil_of_right_ne_nil _ (List.cons_ne_nil _ _) hearly
      · exact Nat.le_of_eq (h.heard hnone)
    obtain ⟨d'', hdecode, hleads', hlimit'⟩ := hleads.block hsize hmax hr (by rw [hlimit]; exact hlist)
    have hkept := (encode_valid headers hleads.encoder_valid (by omega) hr).2
    refine ⟨⟨d'', ?_, hleads', hlimit'.trans hlimit⟩, rfl, h.remote, ?_, ?_⟩
    · rw [h.whole, List.nil_append]
      exact replay_snoc hreplay hdecode
    · exact fun hnone => hkept.trans (h.unheard hnone)
    · exact fun hsome => hkept.trans (h.heard hsome)
  | extend | complete => exact ⟨h.replay, h.whole, h.remote, h.unheard, h.heard⟩

/-- What is proper at the end was so before. -/
theorem Proper.before (h : Proper own d k') (hcodes : Codes speaks k k')
    (hannounced : k.announced ≠ [] →
      (k.announced.flatten.foldl Settings.apply Settings.new).headerTableSize.toNat = d.maxTableSize) :
    Proper own d k := by
  refine ⟨hannounced, ?_, ?_⟩
  · cases hcodes with
    | block => exact fun headers hmem => h.fits headers (List.mem_append_left _ hmem)
    | same | settings | extend | complete => exact h.fits
  · cases hcodes with
    | block =>
      refine h.timely.imp_right fun hearly => ?_
      dsimp only at hearly
      split at hearly
      · exact (List.append_eq_nil_iff.1 hearly).1
      · exact hearly
    | same | settings | extend | complete => exact h.timely

end Spoken

/-- A side all of whose SETTINGS come from a peer with these limits. -/
theorem announced_size {items : List Item} {role : Role} {limits : Limits}
    (h : ∀ f, .settings f ∈ Wire.receivedFrames items → f.ack = true ∨
      f = Negotiation.announcement role limits)
    (hsome : frames items ≠ []) :
    ((frames items).flatten.foldl Settings.apply Settings.new).headerTableSize = limits.headerTableSize := by
  rw [Pair.announced_settings h, if_neg hsome]
  rfl

/-- The blocks of a side are decoded where they arrive, if nothing else than they arrives there. -/
theorem steps_spoken {T : Terms} {role peer : Role} {limits peerLimits : Limits} {c : Core}
    (hsteps : Steps T (Core.new role limits) c)
    (hsettings : ∀ f, .settings f ∈ Wire.receivedFrames c.trace →
      f.ack = true ∨ f = Negotiation.announcement peer peerLimits)
    (hfits : ∀ headers ∈ encoded c.trace, Fits (Core.new peer peerLimits).hpackDecoder headers)
    (htimely : limits.headerTableSize ≤ peerLimits.headerTableSize ∨ early c.trace = []) :
    Spoken limits.headerTableSize.toNat (Core.new peer peerLimits).hpackDecoder (coding c) := by
  have hmax : (Core.new peer peerLimits).hpackDecoder.maxTableSize < 2 ^ 32 := UInt32.toNat_lt _
  have hsize : ∀ {items : List Item}, (∀ f, .settings f ∈ Wire.receivedFrames items →
      f.ack = true ∨ f = Negotiation.announcement peer peerLimits) → frames items ≠ [] →
      ((frames items).flatten.foldl Settings.apply Settings.new).headerTableSize.toNat =
        (Core.new peer peerLimits).hpackDecoder.maxTableSize :=
    fun hsettings hsome => congrArg UInt32.toNat (announced_size hsettings hsome)
  have hproper : Proper limits.headerTableSize.toNat (Core.new peer peerLimits).hpackDecoder (coding c) :=
    ⟨hsize hsettings, hfits, htimely.imp_left UInt32.le_iff_toNat_le.1⟩
  clear hfits htimely
  induction hsteps with
  | refl =>
    refine ⟨⟨_, rfl, ?_, rfl⟩, rfl, rfl, fun _ => rfl, fun hsome => absurd rfl hsome⟩
    exact ⟨DynamicTable.new_valid _, DynamicTable.new_valid _, List.prefix_refl _, rfl, rfl, .inl rfl⟩
  | @tail c d _ hstep ih =>
    obtain ⟨l, _, hstep⟩ := hstep
    obtain ⟨new, htrace, _⟩ := step_extends hstep
    have hbefore : ∀ f, .settings f ∈ Wire.receivedFrames c.trace →
        f.ack = true ∨ f = Negotiation.announcement peer peerLimits := by
      intro f hf
      apply hsettings
      rw [htrace, ← List.append_assoc, Wire.receivedFrames_append]
      exact List.mem_append_left _ hf
    exact codes_spoken (ih hbefore (hproper.before (step_codes hstep) (hsize hbefore))) hmax hproper
      (step_codes hstep)

/-! ## A server has had the SETTINGS of its client -/

theorem frames_of_settings {items : List Item} {f : SettingsFrame}
    (h : .settings f ∈ Wire.receivedFrames items) (hack : f.ack = false) : frames items ≠ [] := by
  induction items with
  | nil => cases h
  | cons i items ih =>
    cases i with
    | received g =>
      obtain hbefore | hlast := List.mem_append.1 h
      · cases g with
        | settings g =>
          rw [frames]
          split
          · exact ih hbefore
          · exact List.append_ne_nil_of_right_ne_nil _ (List.cons_ne_nil _ _)
        | _ => exact ih hbefore
      · obtain rfl := List.mem_singleton.1 hlast
        rw [frames, if_neg (Bool.eq_false_iff.1 hack)]
        exact List.append_ne_nil_of_right_ne_nil _ (List.cons_ne_nil _ _)
    | _ => exact ih h

theorem codes_early {speaks : Prop} {k k' : Coding} (hcodes : Codes speaks k k') (hearly : k.early = [])
    (hspeaks : speaks → k.announced ≠ []) : k'.early = [] := by
  cases hcodes with
  | same | settings | extend | complete => exact hearly
  | block headers hspoken =>
    dsimp only
    rw [if_neg (hspeaks hspoken)]
    exact hearly

/-- A server answers streams that it has received, and these come after the SETTINGS. -/
theorem steps_early {T : Terms} {limits : Limits} {c : Core} (hsteps : Steps T (Core.new .server limits) c)
    (hfirst : ∀ f rest, Wire.receivedFrames c.trace = f :: rest → ∃ g, f = .settings g ∧ g.ack = false) :
    early c.trace = [] ∧ c.role = .server ∧ ∀ sid, c.Used sid → Wire.receivedFrames c.trace ≠ [] := by
  induction hsteps with
  | refl =>
    refine ⟨rfl, rfl, fun sid hused => ?_⟩
    obtain hlive | hin := hused
    · cases hlive
    · cases hin
  | @tail c d _ hstep ih =>
    obtain ⟨l, _, hstep⟩ := hstep
    obtain ⟨new, htrace, _⟩ := step_extends hstep
    have hreceived : Wire.receivedFrames d.trace =
        Wire.receivedFrames c.trace ++ Wire.receivedFrames (new ++ l.cause) := by
      rw [htrace, ← List.append_assoc, Wire.receivedFrames_append]
    obtain ⟨hearly, hrole, hused⟩ := ih fun f rest hrest => by
      refine hfirst f (rest ++ Wire.receivedFrames (new ++ l.cause)) ?_
      rw [hreceived, hrest, List.cons_append]
    have hrole' : d.role = .server := (Change.step hstep).role.trans hrole
    refine ⟨codes_early (step_codes hstep) hearly ?_, hrole', fun sid hsid => ?_⟩
    · rintro (hclient | ⟨sid, hlive⟩)
      · cases hrole.symm.trans hclient
      · obtain ⟨f, rest, hrest⟩ := List.exists_cons_of_ne_nil (hused sid (.inl hlive))
        obtain ⟨g, rfl, hack⟩ := hfirst f (rest ++ Wire.receivedFrames (new ++ l.cause))
          (by rw [hreceived, hrest, List.cons_append])
        exact frames_of_settings (hrest ▸ List.mem_cons_self) hack
    · rw [hreceived]
      obtain hbefore | hbegins := (Change.step hstep).touches.used hsid
      · exact List.append_ne_nil_of_left_ne_nil (hused sid hbefore) _
      · apply List.append_ne_nil_of_right_ne_nil
        rw [Wire.receivedFrames_append]
        apply List.append_ne_nil_of_left_ne_nil
        cases hbegins with
        | request _ _ hclient => cases hrole.symm.trans hclient
        | whole | last => exact List.cons_ne_nil _ _

end Http2.Compression
