import LoxLang.Store.Basic

/-!
# Chains of scopes side by side

Two chains of scopes are matched up from the inside out: scope by scope, with scopes passed over
that bind nothing. A name is then found in both chains or in neither of them, and in scopes that are
matched.
-/

namespace LoxLang

/-- The scopes of two chains that match, in order. Blank scopes on either side have no match. -/
inductive Aligned (pairs : ScopeId → ScopeId → Prop) (blank otherBlank : ScopeId → Prop) :
    List ScopeId → List ScopeId → Prop where
  | nil : Aligned pairs blank otherBlank [] []
  | pair {scope other : ScopeId} {scopes others : List ScopeId} (first : pairs scope other)
      (further : Aligned pairs blank otherBlank scopes others) :
      Aligned pairs blank otherBlank (scope :: scopes) (other :: others)
  | pass {scope : ScopeId} {scopes others : List ScopeId} (isBlank : blank scope)
      (further : Aligned pairs blank otherBlank scopes others) :
      Aligned pairs blank otherBlank (scope :: scopes) others
  | passOther {other : ScopeId} {scopes others : List ScopeId} (isBlank : otherBlank other)
      (further : Aligned pairs blank otherBlank scopes others) :
      Aligned pairs blank otherBlank scopes (other :: others)

namespace Aligned

variable {pairs : ScopeId → ScopeId → Prop} {blank otherBlank : ScopeId → Prop}
  {scopes others : List ScopeId}

/-- A chain of scopes that are matched with themselves is aligned with itself. -/
theorem refl {chain : List ScopeId} (reflexive : ∀ scope ∈ chain, pairs scope scope) :
    Aligned pairs blank otherBlank chain chain := by
  induction chain with
  | nil => exact .nil
  | cons scope chain inductionHypothesis =>
    rw [List.forall_mem_cons] at reflexive
    exact .pair reflexive.1 (inductionHypothesis reflexive.2)

/-- Chains that are aligned stay so if more scopes are matched or blank. -/
theorem mono {morePairs : ScopeId → ScopeId → Prop} {moreBlank moreOtherBlank : ScopeId → Prop}
    (aligned : Aligned pairs blank otherBlank scopes others)
    (pairsLater : ∀ scope other, pairs scope other → morePairs scope other)
    (blankLater : ∀ scope, blank scope → moreBlank scope)
    (otherBlankLater : ∀ scope, otherBlank scope → moreOtherBlank scope) :
    Aligned morePairs moreBlank moreOtherBlank scopes others := by
  induction aligned with
  | nil => exact .nil
  | pair first _ inductionHypothesis =>
    exact .pair (pairsLater _ _ first) inductionHypothesis
  | pass isBlank _ inductionHypothesis => exact .pass (blankLater _ isBlank) inductionHypothesis
  | passOther isBlank _ inductionHypothesis =>
    exact .passOther (otherBlankLater _ isBlank) inductionHypothesis

/-- Chains are aligned from either side. -/
theorem flip (aligned : Aligned pairs blank otherBlank scopes others) :
    Aligned (fun scope other => pairs other scope) otherBlank blank others scopes := by
  induction aligned with
  | nil => exact .nil
  | pair first _ inductionHypothesis => exact .pair first inductionHypothesis
  | pass isBlank _ inductionHypothesis => exact .passOther isBlank inductionHypothesis
  | passOther isBlank _ inductionHypothesis => exact .pass isBlank inductionHypothesis

/-- What is looked up is found on both sides, or on neither. -/
theorem findSome? {α β : Type} {alike : α → β → Prop} {find : ScopeId → Option α}
    {otherFind : ScopeId → Option β} (aligned : Aligned pairs blank otherBlank scopes others)
    (onPair : ∀ scope other, pairs scope other →
      Option.Rel alike (find scope) (otherFind other))
    (onBlank : ∀ scope, blank scope → find scope = none)
    (onOtherBlank : ∀ scope, otherBlank scope → otherFind scope = none) :
    Option.Rel alike (scopes.findSome? find) (others.findSome? otherFind) := by
  induction aligned with
  | nil => exact .none
  | @pair scope other _ _ first _ inductionHypothesis =>
    have found := onPair scope other first
    rw [List.findSome?_cons, List.findSome?_cons]
    generalize find scope = value, otherFind other = otherValue at found ⊢
    cases found with
    | none => exact inductionHypothesis
    | some values => exact .some values
  | @pass scope _ _ isBlank _ inductionHypothesis =>
    rw [List.findSome?_cons, onBlank scope isBlank]
    exact inductionHypothesis
  | @passOther other _ _ isBlank _ inductionHypothesis =>
    rw [List.findSome?_cons, onOtherBlank other isBlank]
    exact inductionHypothesis

/-- The scope in which a name is found has a match, in which it is found. -/
theorem find? {holds otherHolds : ScopeId → Bool}
    (aligned : Aligned pairs blank otherBlank scopes others)
    (onPair : ∀ scope other, pairs scope other → otherHolds other = holds scope)
    (onBlank : ∀ scope, blank scope → holds scope = false)
    (onOtherBlank : ∀ scope, otherBlank scope → otherHolds scope = false) :
    Option.Rel pairs (scopes.find? holds) (others.find? otherHolds) := by
  induction aligned with
  | nil => exact .none
  | @pair scope other _ _ first _ inductionHypothesis =>
    rw [List.find?_cons, List.find?_cons, onPair scope other first]
    split
    next => exact .some first
    next => exact inductionHypothesis
  | @pass scope _ _ isBlank _ inductionHypothesis =>
    rw [List.find?_cons, onBlank scope isBlank]
    exact inductionHypothesis
  | @passOther other _ _ isBlank _ inductionHypothesis =>
    rw [List.find?_cons, onOtherBlank other isBlank]
    exact inductionHypothesis

end Aligned
end LoxLang
