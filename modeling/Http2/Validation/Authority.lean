import Http2.Validation
import Mathlib.Data.List.TakeDrop
import Mathlib.Tactic.Ring
import Mathlib.Data.List.TakeWhile

/-! The grammar of authorities (RFC 3986 section 3.2) that `is_valid_authority` decides. -/
namespace Http2

/-! ## The grammar -/

/-- `*( unreserved / pct-encoded / sub-delims )`. -/
inductive RegNameChars : Bytes → Prop
  | nil : RegNameChars []
  | plain {b : UInt8} {rest : Bytes} : isRegNameByte b = true → RegNameChars rest →
      RegNameChars (b :: rest)
  | encoded {h0 h1 : UInt8} {rest : Bytes} : isAsciiHexdigit h0 = true →
      isAsciiHexdigit h1 = true → RegNameChars rest → RegNameChars (0x25 :: h0 :: h1 :: rest)

/-- The octets between the brackets of an IPv6 literal. -/
def Ipv6Chars (inner : Bytes) : Prop :=
  inner ≠ [] ∧ ∀ b ∈ inner, isAsciiHexdigit b = true ∨ b = 0x3a ∨ b = 0x2e

def decimal (digits : Bytes) : Nat := digits.foldl (fun n b => n * 10 + (b.toNat - 0x30)) 0

/-- Digits that stand for a TCP port. -/
def PortNumber (port : Bytes) : Prop :=
  port ≠ [] ∧ (∀ b ∈ port, isAsciiDigit b = true) ∧ decimal port ≤ 65535

/-- `host` or `host:port`, where the host is an IPv6 literal or a name. -/
inductive HostPort : Bytes → Option Bytes → Prop
  | literal {inner : Bytes} : Ipv6Chars inner → HostPort (0x5b :: (inner ++ [0x5d])) none
  | literalPort {inner port : Bytes} : Ipv6Chars inner → PortNumber port →
      HostPort (0x5b :: (inner ++ 0x5d :: 0x3a :: port)) (some port)
  | name {host : Bytes} : host ≠ [] → RegNameChars host → HostPort host none
  | namePort {host port : Bytes} : host ≠ [] → RegNameChars host → PortNumber port →
      HostPort (host ++ 0x3a :: port) (some port)

/-! ## The checks decide it -/

theorem regNameBytes_iff (l : Bytes) : regNameBytes l = true ↔ RegNameChars l := by
  induction l using regNameBytes.induct with
  | case1 => exact ⟨fun _ => .nil, fun _ => rfl⟩
  | case2 h0 h1 rest ih =>
    rw [regNameBytes, if_pos rfl, Bool.and_eq_true, Bool.and_eq_true, ih]
    constructor
    · rintro ⟨⟨hh0, hh1⟩, hrest⟩
      exact .encoded hh0 hh1 hrest
    · intro h
      cases h with
      | plain hb _ => exact absurd hb (by decide)
      | encoded hh0 hh1 hrest => exact ⟨⟨hh0, hh1⟩, hrest⟩
  | case3 rest hrest =>
    have hfalse : regNameBytes (0x25 :: rest) = false := by
      rcases rest with _ | ⟨h0, _ | ⟨h1, tail⟩⟩
      · rfl
      · rfl
      · exact absurd rfl (hrest h0 h1 tail)
    rw [hfalse]
    constructor
    · intro h
      cases h
    · intro h
      cases h with
      | plain hb _ => exact absurd hb (by decide)
      | encoded => exact absurd rfl (hrest _ _ _)
  | case4 b rest hb ih =>
    have heq : regNameBytes (b :: rest) = (isRegNameByte b && regNameBytes rest) := by
      conv => lhs; unfold regNameBytes
      rw [if_neg hb]
    rw [heq, Bool.and_eq_true, ih]
    constructor
    · rintro ⟨hplain, hrest⟩
      exact .plain hplain hrest
    · intro h
      cases h with
      | plain hplain hrest => exact ⟨hplain, hrest⟩
      | encoded => exact absurd rfl hb

theorem isValidRegName_iff (host : Bytes) :
    isValidRegName host = true ↔ host ≠ [] ∧ RegNameChars host := by
  simp [isValidRegName, regNameBytes_iff]

theorem isValidIpv6LiteralChars_iff (inner : Bytes) :
    isValidIpv6LiteralChars inner = true ↔ Ipv6Chars inner := by
  simp [isValidIpv6LiteralChars, Ipv6Chars, or_assoc]

theorem le_foldl_decimal (l : Bytes) (acc : Nat) :
    acc ≤ l.foldl (fun n b => n * 10 + (b.toNat - 0x30)) acc := by
  induction l generalizing acc with
  | nil => exact Nat.le_refl _
  | cons b l ih =>
    rw [List.foldl_cons]
    exact Nat.le_trans (by omega) (ih _)

/-- Parsing gives the value of the digits, unless that needs more than `w` bits. -/
theorem parseDecimal_iff {w : Nat} {l : Bytes} (hl : ∀ b ∈ l, isAsciiDigit b = true) {acc n : Nat}
    (hacc : acc < 2 ^ w) :
    parseDecimal w l acc = some n ↔
      l.foldl (fun n b => n * 10 + (b.toNat - 0x30)) acc = n ∧ n < 2 ^ w := by
  induction l generalizing acc with
  | nil =>
    simp only [parseDecimal, List.foldl_nil, Option.some.injEq]
    constructor
    · rintro rfl
      exact ⟨rfl, hacc⟩
    · exact And.left
  | cons b l ih =>
    have hb := hl b List.mem_cons_self
    rw [parseDecimal, List.foldl_cons]
    simp only [hb, Bool.true_and]
    by_cases hlt : acc * 10 + (b.toNat - 0x30) < 2 ^ w
    · rw [if_pos (by simpa using hlt)]
      exact ih (fun c hc => hl c (List.mem_cons_of_mem _ hc)) hlt
    · rw [if_neg (by simpa using hlt)]
      have hle := le_foldl_decimal l (acc * 10 + (b.toNat - 0x30))
      constructor
      · intro h
        cases h
      · rintro ⟨rfl, h⟩
        omega

theorem isValidPort_iff (port : Bytes) : isValidPort port = true ↔ PortNumber port := by
  by_cases hne : port = []
  · subst hne
    simp [isValidPort, PortNumber]
  · by_cases hdigits : ∀ b ∈ port, isAsciiDigit b = true
    · have hall : port.all isAsciiDigit = true := List.all_eq_true.2 hdigits
      have hempty : port.isEmpty = false := by simpa using hne
      have hparse := fun n => parseDecimal_iff hdigits (w := 32) (n := n) (Nat.two_pow_pos 32)
      rw [isValidPort, hempty, hall]
      simp only [Bool.not_true, Bool.or_self, Bool.false_eq_true, if_false]
      cases hp : parseDecimal 32 port 0 with
      | some n =>
        have heq : decimal port = n := ((hparse n).1 hp).1
        simp only [decide_eq_true_eq]
        exact ⟨fun h => ⟨hne, hdigits, by omega⟩, fun h => by have := h.2.2; omega⟩
      | none =>
        have hbig : ¬ decimal port < 2 ^ 32 := by
          intro hlt
          rw [(hparse (decimal port)).2 ⟨rfl, hlt⟩] at hp
          cases hp
        constructor
        · intro h
          cases h
        · intro h
          have := h.2.2
          omega
    · have hall : port.all isAsciiDigit = false := by
        rw [Bool.eq_false_iff]
        intro h
        exact hdigits (List.all_eq_true.1 h)
      rw [isValidPort, hall]
      simp only [Bool.not_false, Bool.or_true, if_true]
      constructor
      · intro h
        cases h
      · intro h
        exact absurd h.2.1 hdigits

/-- The split at the last colon. -/
theorem splitLastColon_append {host port : Bytes} (h : (0x3a : UInt8) ∉ port) :
    splitLastColon (host ++ 0x3a :: port) = (host, some port) := by
  have hport : ∀ b ∈ port.reverse, (b != (0x3a : UInt8)) = true := by
    intro b hb
    rw [List.mem_reverse] at hb
    rw [bne_iff_ne]
    rintro rfl
    exact h hb
  have hrev : (host ++ 0x3a :: port).reverse = port.reverse ++ 0x3a :: host.reverse := by simp
  rw [splitLastColon, List.span_eq_takeWhile_dropWhile, hrev, List.takeWhile_append_of_pos hport,
    List.dropWhile_append_of_pos hport]
  simp

theorem splitLastColon_none {host : Bytes} (h : (0x3a : UInt8) ∉ host) :
    splitLastColon host = (host, none) := by
  have hhost : ∀ b ∈ host.reverse, (b != (0x3a : UInt8)) = true := by
    intro b hb
    rw [List.mem_reverse] at hb
    rw [bne_iff_ne]
    rintro rfl
    exact h hb
  rw [splitLastColon, List.span_eq_takeWhile_dropWhile, List.dropWhile_eq_nil_iff.2 hhost]

/-- A string with a colon splits at its last one. -/
theorem exists_lastColon {authority : Bytes} (h : (0x3a : UInt8) ∈ authority) :
    ∃ host port, authority = host ++ 0x3a :: port ∧ (0x3a : UInt8) ∉ port := by
  induction authority with
  | nil => cases h
  | cons b rest ih =>
    by_cases hrest : (0x3a : UInt8) ∈ rest
    · obtain ⟨host, port, rfl, hport⟩ := ih hrest
      exact ⟨b :: host, port, rfl, hport⟩
    · rcases List.mem_cons.1 h with rfl | hmem
      · exact ⟨[], rest, rfl, hrest⟩
      · exact absurd hmem hrest

theorem RegNameChars.not_mem {host : Bytes} (h : RegNameChars host) {c : UInt8}
    (hplain : isRegNameByte c = false) (hhex : isAsciiHexdigit c = false) (hpercent : c ≠ 0x25) :
    c ∉ host := by
  induction h with
  | nil => exact List.not_mem_nil
  | plain hb _ ih =>
    intro hmem
    rcases List.mem_cons.1 hmem with rfl | hmem
    · rw [hplain] at hb
      cases hb
    · exact ih hmem
  | encoded h0 h1 _ ih =>
    intro hmem
    simp only [List.mem_cons] at hmem
    rcases hmem with rfl | rfl | rfl | hmem
    · exact hpercent rfl
    · rw [hhex] at h0
      cases h0
    · rw [hhex] at h1
      cases h1
    · exact ih hmem

theorem PortNumber.no_colon {port : Bytes} (h : PortNumber port) : (0x3a : UInt8) ∉ port := by
  intro hmem
  exact absurd (h.2.1 _ hmem) (by decide)

theorem Ipv6Chars.no_bracket {inner : Bytes} (h : Ipv6Chars inner) : (0x5d : UInt8) ∉ inner := by
  intro hmem
  exact absurd (h.2 _ hmem) (by decide)

/-- The split at the first closing bracket. -/
theorem span_bracket {inner rest : Bytes} (h : (0x5d : UInt8) ∉ inner) :
    (inner ++ 0x5d :: rest).span (· != 0x5d) = (inner, 0x5d :: rest) := by
  have hinner : ∀ b ∈ inner, (b != (0x5d : UInt8)) = true := by
    intro b hb
    rw [bne_iff_ne]
    rintro rfl
    exact h hb
  rw [List.span_eq_takeWhile_dropWhile, List.takeWhile_append_of_pos hinner,
    List.dropWhile_append_of_pos hinner]
  simp

theorem exists_bracket {literal : Bytes} (h : (0x5d : UInt8) ∈ literal) :
    ∃ inner rest, literal = inner ++ 0x5d :: rest ∧ (0x5d : UInt8) ∉ inner := by
  obtain ⟨inner, rest, heq, hnot⟩ := List.eq_append_cons_of_mem h
  exact ⟨inner, rest, heq, hnot⟩

/-- What may follow a host whose end is known: nothing, unless the port is required, or a port. -/
def isValidOptionalPort (portRequired : Bool) : Option Bytes → Bool
  | some port => isValidPort port
  | none => !portRequired

/-- What may follow the closing bracket. -/
def isValidAfterLiteral (portRequired : Bool) : Bytes → Bool
  | [] => !portRequired
  | 0x3a :: port => isValidPort port
  | _ => false

theorem isValidAuthority_literal (literal : Bytes) (portRequired : Bool) :
    isValidAuthority (0x5b :: literal) portRequired = true ↔
      (∃ inner, literal = inner ++ [0x5d] ∧ Ipv6Chars inner ∧ portRequired = false) ∨
      ∃ inner port, literal = inner ++ 0x5d :: 0x3a :: port ∧ Ipv6Chars inner ∧
        PortNumber port := by
  have split : ∀ inner rest : Bytes, (0x5d : UInt8) ∉ inner →
      isValidAuthority (0x5b :: (inner ++ 0x5d :: rest)) portRequired =
        (isValidIpv6LiteralChars inner && isValidAfterLiteral portRequired rest) := by
    intro inner rest hinner
    rw [isValidAuthority, span_bracket hinner]
    rfl
  constructor
  · intro h
    by_cases hmem : (0x5d : UInt8) ∈ literal
    · obtain ⟨inner, rest, rfl, hinner⟩ := exists_bracket hmem
      rw [split inner rest hinner, Bool.and_eq_true, isValidIpv6LiteralChars_iff] at h
      obtain ⟨hchars, h⟩ := h
      unfold isValidAfterLiteral at h
      split at h
      · exact .inl ⟨inner, rfl, hchars, by simpa using h⟩
      · rename_i port
        exact .inr ⟨inner, port, rfl, hchars, (isValidPort_iff port).1 h⟩
      · cases h
    · have hall : ∀ b ∈ literal, (b != (0x5d : UInt8)) = true := by
        intro b hb
        rw [bne_iff_ne]
        rintro rfl
        exact hmem hb
      rw [isValidAuthority, List.span_eq_takeWhile_dropWhile, List.dropWhile_eq_nil_iff.2 hall] at h
      cases h
  · rintro (⟨inner, rfl, hchars, rfl⟩ | ⟨inner, port, rfl, hchars, hport⟩)
    · rw [split inner [] hchars.no_bracket, (isValidIpv6LiteralChars_iff inner).2 hchars]
      rfl
    · rw [split inner _ hchars.no_bracket, (isValidIpv6LiteralChars_iff inner).2 hchars]
      exact (isValidPort_iff port).2 hport

theorem isValidAuthority_name {b : UInt8} (hb : b ≠ 0x5b) (rest : Bytes) (portRequired : Bool) :
    isValidAuthority (b :: rest) portRequired = true ↔
      ((0x3a : UInt8) ∉ b :: rest ∧ RegNameChars (b :: rest) ∧ portRequired = false) ∨
      ∃ host port, b :: rest = host ++ 0x3a :: port ∧ host ≠ [] ∧ RegNameChars host ∧
        PortNumber port := by
  have hvalid : isValidAuthority (b :: rest) portRequired =
      (isValidRegName (splitLastColon (b :: rest)).1 &&
        isValidOptionalPort portRequired (splitLastColon (b :: rest)).2) := by
    rw [isValidAuthority]
    · rfl
    · intro h
      cases h
    · intro literal h
      exact hb (List.cons_eq_cons.1 h).1
  rw [hvalid, Bool.and_eq_true, isValidRegName_iff]
  constructor
  · rintro ⟨⟨hne, hhost⟩, hport⟩
    by_cases hmem : (0x3a : UInt8) ∈ b :: rest
    · obtain ⟨host, port, heq, hnot⟩ := exists_lastColon hmem
      rw [heq, splitLastColon_append hnot] at hne hhost hport
      exact .inr ⟨host, port, heq, hne, hhost, (isValidPort_iff port).1 hport⟩
    · rw [splitLastColon_none hmem] at hhost hport
      exact .inl ⟨hmem, hhost, by simpa [isValidOptionalPort] using hport⟩
  · rintro (⟨hmem, hhost, rfl⟩ | ⟨host, port, heq, hne, hhost, hport⟩)
    · rw [splitLastColon_none hmem]
      exact ⟨⟨List.cons_ne_nil _ _, hhost⟩, rfl⟩
    · rw [heq, splitLastColon_append hport.no_colon]
      exact ⟨⟨hne, hhost⟩, (isValidPort_iff port).2 hport⟩

/-- `is_valid_authority` decides the grammar, with the port required or not. -/
theorem isValidAuthority_iff (authority : Bytes) (portRequired : Bool) :
    isValidAuthority authority portRequired = true ↔
      ∃ port, HostPort authority port ∧ (portRequired = true → port.isSome = true) := by
  have noBracket : ∀ {host : Bytes}, RegNameChars host → (0x5b : UInt8) ∉ host := by
    intro host hhost
    exact hhost.not_mem (by decide) (by decide) (by decide)
  have noColon : ∀ {host : Bytes}, RegNameChars host → (0x3a : UInt8) ∉ host := by
    intro host hhost
    exact hhost.not_mem (by decide) (by decide) (by decide)
  rcases authority with _ | ⟨b, rest⟩
  · constructor
    · intro h
      cases h
    · rintro ⟨port, h, _⟩
      generalize hnil : ([] : Bytes) = authority at h
      cases h with
      | literal => cases hnil
      | literalPort => cases hnil
      | name hne _ => exact absurd hnil.symm hne
      | namePort => simp at hnil
  by_cases hb : b = 0x5b
  · subst hb
    rw [isValidAuthority_literal]
    constructor
    · rintro (⟨inner, rfl, hchars, rfl⟩ | ⟨inner, port, rfl, hchars, hport⟩)
      · exact ⟨none, .literal hchars, fun h => by cases h⟩
      · exact ⟨some port, .literalPort hchars hport, fun _ => rfl⟩
    · rintro ⟨port, h, hreq⟩
      generalize heq : (0x5b :: rest : Bytes) = authority at h
      cases h with
      | literal hchars =>
        cases heq
        refine .inl ⟨_, rfl, hchars, ?_⟩
        simpa using hreq
      | literalPort hchars hport =>
        cases heq
        exact .inr ⟨_, _, rfl, hchars, hport⟩
      | name _ hhost =>
        subst heq
        exact absurd List.mem_cons_self (noBracket hhost)
      | @namePort host port hne hhost hport =>
        cases host with
        | nil => exact absurd rfl hne
        | cons c host =>
          cases heq
          exact absurd List.mem_cons_self (noBracket hhost)
  · rw [isValidAuthority_name hb]
    constructor
    · rintro (⟨_, hhost, rfl⟩ | ⟨host, port, heq, hne, hhost, hport⟩)
      · exact ⟨none, .name (List.cons_ne_nil _ _) hhost, fun h => by cases h⟩
      · rw [heq]
        exact ⟨some port, .namePort hne hhost hport, fun _ => rfl⟩
    · rintro ⟨port, h, hreq⟩
      generalize heq : b :: rest = authority at h
      cases h with
      | literal => exact absurd (List.cons_eq_cons.1 heq).1 hb
      | literalPort => exact absurd (List.cons_eq_cons.1 heq).1 hb
      | name _ hhost => exact .inl ⟨noColon hhost, hhost, by simpa using hreq⟩
      | namePort hne hhost hport => exact .inr ⟨_, _, rfl, hne, hhost, hport⟩

/-! ## The grammar by its parts -/

/-- `unreserved` of RFC 3986 section 2.3. -/
def Unreserved (b : UInt8) : Prop := isAsciiAlphanumeric b = true ∨ b ∈ ascii "-._~"

/-- `sub-delims` of RFC 3986 section 2.2. -/
def SubDelim (b : UInt8) : Prop := b ∈ ascii "!$&'()*+,;="

/-- One element of a name: an octet that stands for itself, or a percent triple. -/
inductive RegNamePart : Bytes → Prop
  | plain {b : UInt8} : Unreserved b ∨ SubDelim b → RegNamePart [b]
  | encoded {h0 h1 : UInt8} : isAsciiHexdigit h0 = true → isAsciiHexdigit h1 = true →
      RegNamePart [0x25, h0, h1]

/-- `host`: an IPv6 literal in brackets, or one element of a name after another. -/
inductive Host : Bytes → Prop
  | literal {inner : Bytes} : inner ≠ [] →
      (∀ b ∈ inner, isAsciiHexdigit b = true ∨ b = 0x3a ∨ b = 0x2e) →
      Host (ascii "[" ++ inner ++ ascii "]")
  | regName {parts : List Bytes} : parts ≠ [] → (∀ p ∈ parts, RegNamePart p) → Host parts.flatten

theorem isRegNameByte_iff (b : UInt8) : isRegNameByte b = true ↔ Unreserved b ∨ SubDelim b := by
  have hmarks : ∀ c : UInt8, [0x2d, 0x2e, 0x5f, 0x7e, 0x21, 0x24, 0x26, 0x27, 0x28, 0x29, 0x2a,
      0x2b, 0x2c, 0x3b, 0x3d].contains c = true ↔ c ∈ ascii "-._~" ∨ c ∈ ascii "!$&'()*+,;=" := by
    intro c
    rw [show ascii "-._~" = [0x2d, 0x2e, 0x5f, 0x7e] by decide,
      show ascii "!$&'()*+,;=" = [0x21, 0x24, 0x26, 0x27, 0x28, 0x29, 0x2a, 0x2b, 0x2c, 0x3b, 0x3d]
        by decide]
    simp [or_assoc]
  rw [isRegNameByte, Bool.or_eq_true, hmarks, ← or_assoc]
  rfl

theorem RegNamePart.ne_nil {p : Bytes} (h : RegNamePart p) : p ≠ [] := by
  cases h <;> simp

/-- The octets of a name are its elements put together. -/
theorem regNameChars_iff (host : Bytes) :
    RegNameChars host ↔ ∃ parts : List Bytes, (∀ p ∈ parts, RegNamePart p) ∧ host = parts.flatten := by
  constructor
  · intro h
    induction h with
    | nil => exact ⟨[], by simp, rfl⟩
    | plain hb _ ih =>
      obtain ⟨parts, hparts, rfl⟩ := ih
      have hpart := RegNamePart.plain ((isRegNameByte_iff _).1 hb)
      exact ⟨_ :: parts, List.forall_mem_cons.2 ⟨hpart, hparts⟩, rfl⟩
    | encoded hh0 hh1 _ ih =>
      obtain ⟨parts, hparts, rfl⟩ := ih
      exact ⟨_ :: parts, List.forall_mem_cons.2 ⟨.encoded hh0 hh1, hparts⟩, rfl⟩
  · rintro ⟨parts, hparts, rfl⟩
    induction parts with
    | nil => exact .nil
    | cons p parts ih =>
      obtain ⟨hp, hrest⟩ := List.forall_mem_cons.1 hparts
      cases hp with
      | plain hb => exact .plain ((isRegNameByte_iff _).2 hb) (ih hrest)
      | encoded hh0 hh1 => exact .encoded hh0 hh1 (ih hrest)

theorem host_iff (a : Bytes) : Host a ↔ HostPort a none := by
  constructor
  · intro h
    cases h with
    | literal hne hchars => exact .literal ⟨hne, hchars⟩
    | @regName parts hne hparts =>
      apply HostPort.name
      · obtain ⟨p, hp⟩ := List.exists_mem_of_ne_nil parts hne
        intro hnil
        exact (hparts p hp).ne_nil (List.flatten_eq_nil_iff.1 hnil p hp)
      · exact (regNameChars_iff _).2 ⟨parts, hparts, rfl⟩
  · intro h
    cases h with
    | literal hchars => exact .literal hchars.1 hchars.2
    | name hne hhost =>
      obtain ⟨parts, hparts, rfl⟩ := (regNameChars_iff _).1 hhost
      apply Host.regName _ hparts
      rintro rfl
      exact hne rfl

/-- A port follows a host behind a colon. -/
theorem hostPort_some_iff (a port : Bytes) :
    HostPort a (some port) ↔ ∃ host, Host host ∧ PortNumber port ∧ a = host ++ 0x3a :: port := by
  constructor
  · intro h
    cases h with
    | literalPort hchars hport =>
      exact ⟨_, .literal hchars.1 hchars.2, hport, by simp [ascii]⟩
    | namePort hne hhost hport => exact ⟨_, (host_iff _).2 (.name hne hhost), hport, rfl⟩
  · rintro ⟨host, hhost, hport, rfl⟩
    cases (host_iff host).1 hhost with
    | literal hchars => simpa using HostPort.literalPort hchars hport
    | name hne hchars => exact .namePort hne hchars hport

/-- An authority is a host and a port behind a colon, or a host alone where no port is required. -/
theorem authority_grammar (authority : Bytes) (portRequired : Bool) :
    isValidAuthority authority portRequired = true ↔
      (portRequired = false ∧ Host authority) ∨
        ∃ host port, authority = host ++ ascii ":" ++ port ∧ Host host ∧ port ≠ [] ∧
          (∀ b ∈ port, isAsciiDigit b = true) ∧ decimal port ≤ 65535 := by
  rw [isValidAuthority_iff]
  constructor
  · rintro ⟨port, hport, hrequired⟩
    cases port with
    | none => exact .inl ⟨by simpa using hrequired, (host_iff _).2 hport⟩
    | some port =>
      obtain ⟨host, hhost, hnumber, rfl⟩ := (hostPort_some_iff _ _).1 hport
      exact .inr ⟨host, port, by simp [ascii], hhost, hnumber⟩
  · rintro (⟨hoptional, hhost⟩ | ⟨host, port, rfl, hhost, hnumber⟩)
    · exact ⟨none, (host_iff _).1 hhost, by simp [hoptional]⟩
    · refine ⟨some port, (hostPort_some_iff _ _).2 ⟨host, hhost, hnumber, by simp [ascii]⟩, ?_⟩
      intro _
      rfl

end Http2
