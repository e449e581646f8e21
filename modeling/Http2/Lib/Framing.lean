import Mathlib.Data.List.Infix

/-! Decoders that are fed a stream in pieces and keep what they cannot use yet. What such a decoder
says depends on the octets it has not used up, so the pieces may end anywhere. -/
namespace Http2.Lib

structure Framer (σ ε α β : Type) where
  feed : σ → List β → σ
  decode : σ → Except ε (Option α) × σ

namespace Framer

variable {σ ε α β : Type}

/-- `decode` until it has nothing more to say: the messages and the state after them. -/
inductive Drains (F : Framer σ ε α β) : σ → List α → σ → Prop
  | idle {s s' : σ} : F.decode s = (.ok none, s') → Drains F s [] s'
  | next {s s₁ s' : σ} {a : α} {as : List α} :
      F.decode s = (.ok (some a), s₁) → Drains F s₁ as s' → Drains F s (a :: as) s'

/-- Feed the pieces in order and drain the decoder after each. -/
inductive Reads (F : Framer σ ε α β) : σ → List (List β) → List α → σ → Prop
  | done (s : σ) : Reads F s [] [] s
  | piece {s s₁ s' : σ} {piece : List β} {pieces : List (List β)} {as as' : List α} :
      Drains F (F.feed s piece) as s₁ → Reads F s₁ pieces as' s' →
        Reads F s (piece :: pieces) (as ++ as') s'

/-- The decoder reads what `encode` writes of good messages: `Awaits s octets` says that those are
the octets that `s` has been fed and has not used up. -/
structure Reader (F : Framer σ ε α β) (encode : α → List β) (Good : α → Prop)
    (Awaits : σ → List β → Prop) : Prop where
  feed : ∀ {s octets} (piece : List β), Awaits s octets → Awaits (F.feed s piece) (octets ++ piece)
  empty : ∀ {s}, Awaits s [] → ∃ s', F.decode s = (.ok none, s') ∧ Awaits s' []
  whole : ∀ {s rest} (a : α), Good a → Awaits s (encode a ++ rest) →
    ∃ s', F.decode s = (.ok (some a), s') ∧ Awaits s' rest
  cut : ∀ {s octets} (a : α), Good a → Awaits s octets → octets <+: encode a →
    octets ≠ encode a → ∃ s', F.decode s = (.ok none, s') ∧ Awaits s' octets

variable {F : Framer σ ε α β} {encode : α → List β} {Good : α → Prop} {Awaits : σ → List β → Prop}

theorem drains_deterministic {s s₁ s₂ : σ} {as bs : List α} (h₁ : Drains F s as s₁)
    (h₂ : Drains F s bs s₂) : as = bs ∧ s₁ = s₂ := by
  induction h₁ generalizing bs with
  | idle h =>
    cases h₂ with
    | idle h' =>
      rw [h] at h'
      cases h'
      exact ⟨rfl, rfl⟩
    | next h' _ =>
      rw [h] at h'
      cases h'
  | next h _ ih =>
    cases h₂ with
    | idle h' =>
      rw [h] at h'
      cases h'
    | next h' hrest =>
      rw [h] at h'
      cases h'
      obtain ⟨rfl, rfl⟩ := ih hrest
      exact ⟨rfl, rfl⟩

theorem reads_deterministic {s s₁ s₂ : σ} {pieces : List (List β)} {as bs : List α}
    (h₁ : Reads F s pieces as s₁) (h₂ : Reads F s pieces bs s₂) : as = bs ∧ s₁ = s₂ := by
  induction h₁ generalizing bs with
  | done =>
    cases h₂
    exact ⟨rfl, rfl⟩
  | piece hdrains _ ih =>
    cases h₂ with
    | piece hdrains' hrest =>
      obtain ⟨rfl, rfl⟩ := drains_deterministic hdrains hdrains'
      obtain ⟨rfl, rfl⟩ := ih hrest
      exact ⟨rfl, rfl⟩

/-- When a part of a stream has arrived the decoder waits, or the next message is whole. -/
theorem decodes_arrived (hread : Reader F encode Good Awaits) {s : σ} {arrived rest : List β}
    {as : List α} (has : ∀ a ∈ as, Good a) (hs : Awaits s arrived)
    (hsplit : arrived ++ rest = as.flatMap encode) :
    (∃ s', F.decode s = (.ok none, s') ∧ Awaits s' arrived ∧ (rest = [] → as = [])) ∨
      ∃ a later s' more, as = a :: later ∧ F.decode s = (.ok (some a), s') ∧ Awaits s' more ∧
        more ++ rest = later.flatMap encode := by
  cases as with
  | nil =>
    obtain ⟨rfl, rfl⟩ := List.append_eq_nil_iff.1 hsplit
    obtain ⟨s', hdecode, hs'⟩ := hread.empty hs
    exact .inl ⟨s', hdecode, hs', fun _ => rfl⟩
  | cons a later =>
    have ha := has a List.mem_cons_self
    rw [List.flatMap_cons] at hsplit
    by_cases hall : encode a <+: arrived
    · obtain ⟨more, rfl⟩ := hall
      rw [List.append_assoc] at hsplit
      obtain ⟨s', hdecode, hs'⟩ := hread.whole a ha hs
      exact .inr ⟨a, later, s', more, rfl, hdecode, hs', List.append_cancel_left hsplit⟩
    · have hpart : arrived <+: encode a :=
        (List.prefix_or_prefix_of_prefix ⟨rest, hsplit⟩ (List.prefix_append _ _)).resolve_right hall
      have hne : arrived ≠ encode a := by
        rintro rfl
        exact hall (List.prefix_refl _)
      obtain ⟨s', hdecode, hs'⟩ := hread.cut a ha hs hpart hne
      refine .inl ⟨s', hdecode, hs', ?_⟩
      rintro rfl
      rw [List.append_nil] at hsplit
      exact absurd ⟨_, hsplit.symm⟩ hall

/-- What has arrived of a stream is a row of whole messages and a part of the next one; draining
takes the messages and leaves the part. -/
theorem drains_arrived (hread : Reader F encode Good Awaits) {s : σ} {arrived rest : List β}
    {as : List α} (has : ∀ a ∈ as, Good a) (hs : Awaits s arrived)
    (hsplit : arrived ++ rest = as.flatMap encode) :
    ∃ taken left s' kept, as = taken ++ left ∧ Drains F s taken s' ∧ Awaits s' kept ∧
      kept ++ rest = left.flatMap encode ∧ (rest = [] → left = []) := by
  induction as generalizing s arrived with
  | nil =>
    obtain ⟨s', hdecode, hs', hlast⟩ | ⟨_, _, _, _, hnone, _⟩ := decodes_arrived hread has hs hsplit
    · exact ⟨[], [], s', arrived, rfl, .idle hdecode, hs', hsplit, hlast⟩
    · cases hnone
  | cons a as ih =>
    obtain ⟨s', hdecode, hs', hlast⟩ | ⟨_, _, s₁, more, hsome, hdecode, hs₁, hmore⟩ :=
      decodes_arrived hread has hs hsplit
    · exact ⟨[], a :: as, s', arrived, rfl, .idle hdecode, hs', hsplit, hlast⟩
    · obtain ⟨rfl, rfl⟩ := List.cons.inj hsome
      obtain ⟨taken, left, s', kept, rfl, hdrains, hs', hkept, hlast⟩ :=
        ih (fun b hb => has b (List.mem_cons_of_mem a hb)) hs₁ hmore
      exact ⟨a :: taken, left, s', kept, rfl, .next hdecode hdrains, hs', hkept, hlast⟩

/-- A stream of messages, cut anywhere, is read back whole. -/
theorem reads_pieces (hread : Reader F encode Good Awaits) {s : σ} {arrived : List β}
    {pieces : List (List β)} {as : List α} (has : ∀ a ∈ as, Good a) (hs : Awaits s arrived)
    (hsplit : arrived ++ pieces.flatten = as.flatMap encode) (hlast : pieces.flatten = [] → as = []) :
    ∃ s', Reads F s pieces as s' ∧ Awaits s' [] := by
  induction pieces generalizing s arrived as with
  | nil =>
    obtain rfl := hlast rfl
    obtain ⟨rfl, _⟩ := List.append_eq_nil_iff.1 hsplit
    exact ⟨s, .done s, hs⟩
  | cons piece pieces ih =>
    rw [List.flatten_cons, ← List.append_assoc] at hsplit
    obtain ⟨taken, left, s₁, kept, rfl, hdrains, hs₁, hkept, hleft⟩ :=
      drains_arrived hread has (hread.feed piece hs) hsplit
    obtain ⟨s', hreads, hs'⟩ :=
      ih (fun a ha => has a (List.mem_append_right taken ha)) hs₁ hkept hleft
    exact ⟨s', .piece hdrains hreads, hs'⟩

end Framer

end Http2.Lib
