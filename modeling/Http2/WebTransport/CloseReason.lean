import Http2.Lib.Utf8
import Http2.WebTransport.Bounds
import Http2.WebTransport.Chunks

/-! The reason that `close` sends: as many whole characters of the given one as the limit allows. -/
namespace Http2.WebTransport

open Lib Lib.Prog Lib.Utf8 WtSession

/-- `str::is_char_boundary`, which a slice of a string asks of its ends. -/
def isCharBoundary (bytes : Bytes) (i : Nat) : Bool :=
  i == 0 || match bytes[i]? with
    | some b => b &&& 0xc0 != 0x80
    | none => i == bytes.length

/-- Stepping back ends at the start of a character and passes none. -/
theorem charBoundary_spec (bytes : Bytes) (n : Nat) :
    (charBoundary bytes n = 0 ∨ isContinuation (bytes.getD (charBoundary bytes n) 0) = false) ∧
      ∀ j, charBoundary bytes n < j → j ≤ n → isContinuation (bytes.getD j 0) = true := by
  induction n with
  | zero =>
    constructor
    · exact .inl rfl
    · intro j hlt hle
      omega
  | succ n ih =>
    rw [charBoundary]
    split
    · rename_i hcontinues
      constructor
      · exact ih.1
      · intro j hlt hle
        by_cases hj : j = n + 1
        · simpa [hj, isContinuation] using hcontinues
        · exact ih.2 j hlt (by omega)
    · rename_i hstarts
      constructor
      · exact .inr (by simpa [isContinuation] using hstarts)
      · intro j hlt hle
        omega

section
variable {bytes : Bytes} {chars : List Char} {n : Nat} (hbytes : bytes = encode chars)
  (hlong : n < bytes.length)
include hbytes hlong

theorem boundary_charBoundary : Boundary bytes (charBoundary bytes n) := by
  obtain hzero | hstarts := (charBoundary_spec bytes n).1
  · rw [hzero, hbytes]
    exact boundary_zero chars
  · have hle := charBoundary_le bytes n
    have hlt : charBoundary bytes n < bytes.length := by omega
    refine .inr ⟨bytes[charBoundary bytes n], List.getElem?_eq_getElem hlt, ?_⟩
    rwa [List.getD_eq_getElem?_getD, List.getElem?_eq_getElem hlt, Option.getD_some] at hstarts

omit hbytes in
theorem charBoundary_last {j : Nat} (hj : Boundary bytes j) (hle : j ≤ n) :
    j ≤ charBoundary bytes n := by
  by_contra hlt
  have hcontinues := (charBoundary_spec bytes n).2 j (by omega) hle
  obtain rfl | ⟨b, hget, hb⟩ := hj
  · omega
  · rw [List.getD_eq_getElem?_getD, hget] at hcontinues
    rw [Option.getD_some, hb] at hcontinues
    cases hcontinues

/-- The cut leaves whole characters, and as many of them as fit. -/
theorem take_charBoundary :
    ∃ p s, chars = p ++ s ∧ bytes.take (charBoundary bytes n) = encode p ∧
      ∀ q t, chars = q ++ t → (encode q).length ≤ n → q <+: p := by
  have hboundary := boundary_charBoundary hbytes hlong
  rw [hbytes] at hboundary
  obtain ⟨p, s, rfl, hlen⟩ := boundary_iff.1 hboundary
  refine ⟨p, s, rfl, ?_, ?_⟩
  · rw [hbytes, hlen, encode_append, List.take_left]
  · intro q t hsplit hfits
    apply prefix_of_encode_le hsplit.symm
    rw [← hlen, ← hbytes]
    apply charBoundary_last hlong _ hfits
    rw [hbytes]
    exact boundary_iff.2 ⟨q, t, hsplit, rfl⟩

end

theorem isCharBoundary_of_boundary {bytes : Bytes} {i : Nat} (h : Boundary bytes i) :
    isCharBoundary bytes i = true := by
  obtain rfl | ⟨b, hget, hb⟩ := h
  · simp [isCharBoundary]
  · simp only [isContinuation, beq_eq_false_iff_ne] at hb
    simp [isCharBoundary, hget, hb]

/-- What `close` sends is the longest row of characters at the front of the reason that fits. -/
theorem closeReason_longest (reason : String) :
    (closeReason reason).toList <+: reason.toList ∧
      ∀ q : String, q.toList <+: reason.toList → (utf8 q).length ≤ maxCloseReasonLen →
        q.toList <+: (closeReason reason).toList := by
  unfold closeReason
  by_cases hlong : (utf8 reason).length > maxCloseReasonLen
  · obtain ⟨p, s, hsplit, htake, hlast⟩ := take_charBoundary (utf8_eq reason) hlong
    simp only [if_pos hlong, htake, fromUtf8_encode, Option.getD_some, String.toList_ofList]
    constructor
    · exact ⟨s, hsplit.symm⟩
    · rintro q ⟨t, hq⟩ hfits
      rw [utf8_eq] at hfits
      exact hlast q.toList t hq.symm hfits
  · simp only [if_neg hlong]
    exact ⟨List.prefix_refl _, fun q hq _ => hq⟩

theorem isCharBoundary_slice {reason : String} (hlong : (utf8 reason).length > maxCloseReasonLen) :
    isCharBoundary (utf8 reason) (charBoundary (utf8 reason) maxCloseReasonLen) = true :=
  isCharBoundary_of_boundary (boundary_charBoundary (utf8_eq reason) hlong)

theorem length_encode_closeCapsule (errorCode : UInt32) (reason : String) :
    (closeCapsule errorCode reason).encode.length ≤ 2048 := by
  have hreason : (utf8 (closeReason reason)).length ≤ 1024 := closeReason_length reason
  have htype := @Varint.length_bytes CapsuleType.wtCloseSession (by decide)
  have hlength := @Varint.length_bytes (4 + (utf8 (closeReason reason)).length)
    (le_maxValue_of_le (by omega))
  have htypeLen := Varint.encodedLen_le CapsuleType.wtCloseSession
  have hlengthLen := Varint.encodedLen_le (4 + (utf8 (closeReason reason)).length)
  simp only [closeCapsule, Capsule.encode, Capsule.parts, Capsule.header, Part.bytes,
    List.cons_append, List.nil_append, List.flatMap_cons, List.flatMap_nil, List.append_nil,
    List.length_append, htype, hlength, Lib.BigEndian.length_toBe]
  omega

/-- A session that is not closed closes, and what it sends reads back as one WT_CLOSE_SESSION with
the code and the longest part of the reason that ends between characters and has at most 1024
octets. The slice that takes that part ends between characters. -/
theorem close_truncates {s : WtSession} (hopen : s.state ≠ .closed) (errorCode : UInt32)
    (reason : String) :
    ∃ s' sent part, WtSession.close errorCode reason s = (.ok (), s') ∧
      s'.outputBuffer = s.outputBuffer ++ sent ∧
      CapsuleDecoder.new.receive [sent] =
        .ok ([.wtCloseSession errorCode part], CapsuleDecoder.new) ∧
      (part.toList <+: reason.toList ∧ (utf8 part).length ≤ 1024) ∧
      (∀ q : String, q.toList <+: reason.toList → (utf8 q).length ≤ 1024 → q.toList <+: part.toList) ∧
      ((utf8 reason).length > 1024 →
        isCharBoundary (utf8 reason) (charBoundary (utf8 reason) 1024) = true) := by
  have hgood : ∀ c ∈ [closeCapsule errorCode reason], c.Encodable ∧ c.Acceptable := by
    intro c hc
    obtain rfl := List.mem_singleton.1 hc
    exact ⟨encodable_closeCapsule errorCode reason, closeReason_length reason⟩
  have hnonempty : ∀ c ∈ [closeCapsule errorCode reason].head?, 0 < c.encode.length := by
    intro c hc
    have hc := hgood c (List.mem_of_mem_head? hc)
    exact List.length_pos_iff.2 (Capsule.encode_ne_nil hc.1 hc.2)
  obtain ⟨hfront, hlongest⟩ := closeReason_longest reason
  have hspec := close_spec s errorCode reason
  obtain ⟨hclosed, _⟩ | ⟨_, hok, hafter⟩ := hspec
  · exact absurd hclosed hopen
  refine ⟨_, (closeCapsule errorCode reason).encode, closeReason reason, Prod.ext hok rfl, ?_, ?_,
    ⟨hfront, closeReason_length reason⟩, hlongest, isCharBoundary_slice⟩
  · exact congrArg WtSession.outputBuffer hafter
  · apply CapsuleDecoder.receive_from hgood
    · simp
    · exact hnonempty
    · have hlen := length_encode_closeCapsule errorCode reason
      refine ⟨?_, trivial⟩
      rw [List.length_nil, CapsuleDecoder.leftover, Nat.zero_sub, Nat.zero_add]
      exact Nat.le_trans hlen (by decide)

/-- A reason of 400 characters of three octets each. -/
theorem close_truncates_euro :
    let reason := String.ofList (List.replicate 400 '€')
    ∃ s' sent part, WtSession.close 7 reason (WtSession.server .default .peerDefault) = (.ok (), s') ∧
      s'.outputBuffer = [] ++ sent ∧
      CapsuleDecoder.new.receive [sent] = .ok ([.wtCloseSession 7 part], CapsuleDecoder.new) ∧
      (part.toList <+: reason.toList ∧ (utf8 part).length ≤ 1024) ∧
      (∀ q : String, q.toList <+: reason.toList → (utf8 q).length ≤ 1024 → q.toList <+: part.toList) ∧
      ((utf8 reason).length > 1024 →
        isCharBoundary (utf8 reason) (charBoundary (utf8 reason) 1024) = true) :=
  close_truncates (s := WtSession.server .default .peerDefault) (by decide) 7 _

end Http2.WebTransport
