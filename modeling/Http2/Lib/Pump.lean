/-! Machines that hold input and take turns on it. If more input does not change a turn that could be
taken without it, the input may arrive in any pieces. -/
namespace Http2.Lib

/-- A turn waits for more input, goes well or fails. -/
inductive Turned (σ ε : Type)
  | waits (s : σ)
  | goes (s : σ)
  | fails (e : ε) (s : σ)

structure Pump (σ ε β : Type) where
  give : σ → List β → σ
  turn : σ → Turned σ ε
  give_nil : ∀ s, give s [] = s
  give_append : ∀ s xs ys, give s (xs ++ ys) = give (give s xs) ys
  give_goes : ∀ {s t}, turn s = .goes t → ∀ xs, turn (give s xs) = .goes (give t xs)
  give_fails : ∀ {s t e}, turn s = .fails e t → ∀ xs, turn (give s xs) = .fails e (give t xs)
  /-- What is done while waiting need not be done again. -/
  give_waits : ∀ {s t}, turn s = .waits t → ∀ xs, turn (give t xs) = turn (give s xs)

namespace Pump

variable {σ ε β : Type} {P : Pump σ ε β}

/-- Turns until one waits or fails. -/
inductive Drains (P : Pump σ ε β) : σ → Except ε Unit → σ → Prop
  | waits {s t : σ} : P.turn s = .waits t → Drains P s (.ok ()) t
  | fails {s t : σ} {e : ε} : P.turn s = .fails e t → Drains P s (.error e) t
  | goes {s t u : σ} {r : Except ε Unit} : P.turn s = .goes t → Drains P t r u → Drains P s r u

/-- The pieces in order, drained after each, up to the first failure; with the input that this leaves. -/
inductive Reads (P : Pump σ ε β) : σ → List (List β) → Except ε Unit → List β → σ → Prop
  | done (s : σ) : Reads P s [] (.ok ()) [] s
  | fails {s t : σ} {e : ε} {piece : List β} (pieces : List (List β)) :
      Drains P (P.give s piece) (.error e) t → Reads P s (piece :: pieces) (.error e) pieces.flatten t
  | piece {s t u : σ} {r : Except ε Unit} {piece left : List β} {pieces : List (List β)} :
      Drains P (P.give s piece) (.ok ()) t → Reads P t pieces r left u →
        Reads P s (piece :: pieces) r left u

section

variable {s t u : σ} {r r' : Except ε Unit} {e : ε}

theorem drains_deterministic (h : Drains P s r t) (h' : Drains P s r' u) : r = r' ∧ t = u := by
  induction h with
  | waits hturn =>
    cases h' with
    | waits hturn' =>
      cases hturn.symm.trans hturn'
      exact ⟨rfl, rfl⟩
    | fails hturn' | goes hturn' _ => cases hturn.symm.trans hturn'
  | fails hturn =>
    cases h' with
    | fails hturn' =>
      cases hturn.symm.trans hturn'
      exact ⟨rfl, rfl⟩
    | waits hturn' | goes hturn' _ => cases hturn.symm.trans hturn'
  | goes hturn _ ih =>
    cases h' with
    | goes hturn' hrest =>
      cases hturn.symm.trans hturn'
      exact ih hrest
    | waits hturn' | fails hturn' => cases hturn.symm.trans hturn'

/-- Two states with the same turn drain alike. -/
theorem drains_of_turn (hturn : P.turn t = P.turn s) (h : Drains P t r u) : Drains P s r u := by
  cases h with
  | waits hwaits => exact .waits (hturn ▸ hwaits)
  | fails hfails => exact .fails (hturn ▸ hfails)
  | goes hgoes hrest => exact .goes (hturn ▸ hgoes) hrest

theorem drains_fails (h : Drains P s r t) (he : r = .error e) (xs : List β) :
    Drains P (P.give s xs) (.error e) (P.give t xs) := by
  induction h with
  | waits _ => cases he
  | fails hturn =>
    cases he
    exact .fails (P.give_fails hturn xs)
  | goes hturn _ ih => exact .goes (P.give_goes hturn xs) (ih he)

/-- What was drained already makes no difference to the input that comes later. -/
theorem drains_resumes {xs : List β} (h : Drains P s r t) (hr : r = .ok ())
    (h' : Drains P (P.give t xs) r' u) : Drains P (P.give s xs) r' u := by
  induction h with
  | waits hturn => exact drains_of_turn (P.give_waits hturn xs) h'
  | fails _ => cases hr
  | goes hturn _ ih => exact .goes (P.give_goes hturn xs) (ih hr h')

/-- Draining after every piece ends as draining once does, when all the input is there. -/
theorem reads_whole {piece left : List β} {pieces : List (List β)}
    (h : Reads P s (piece :: pieces) r left t) :
    Drains P (P.give s (piece :: pieces).flatten) r (P.give t left) := by
  induction pieces generalizing s piece with
  | nil =>
    cases h with
    | fails _ hdrains => simpa [P.give_nil] using hdrains
    | piece hdrains hrest =>
      cases hrest
      simpa [P.give_nil] using hdrains
  | cons next pieces ih =>
    rw [List.flatten_cons, P.give_append]
    cases h with
    | fails _ hdrains => exact drains_fails hdrains rfl _
    | piece hdrains hrest => exact drains_resumes hdrains rfl (ih hrest)

end

end Pump

end Http2.Lib
