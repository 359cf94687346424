import Mathlib.Tactic.Common
import TableQuery.Term.Eval

/-!
# The attributes of a term

A term sees an item only through the attributes that its paths start at. Items that agree on these
give it the same value or the same error; and a term is constant exactly if there are none, so that
a constant has one outcome for all items.
-/

namespace TableQuery

/-- Two items have the same values under names, or both none. -/
def Item.AgreeOn (names : List String) (item item' : Item) : Prop :=
  ∀ name ∈ names, Fields.get? name item = Fields.get? name item'

section Agreement

variable {item item' : Item}

/-- Items that agree on some names agree on fewer. -/
lemma Item.AgreeOn.mono {names more : List String} (h : item.AgreeOn more item')
    (hsub : names ⊆ more) : item.AgreeOn names item' :=
  fun name hname => h name (hsub hname)

/-- A path leads to the same in items with the same value under the attribute that it starts at. -/
lemma Item.value_congr {path : Path}
    (h : Fields.get? path.root item = Fields.get? path.root item') :
    item.value path = item'.value path := by
  unfold Item.value Item.get Path.fromRoot
  rw [Stored.get, Stored.get, h]

end Agreement

namespace Term

mutual

/-- The attributes that the paths of a term start at. -/
def attributes : Term → List String
  | .value _ => []
  | .name path | .is path _ _ => [path.root]
  | .compare _ l r _ | .and l r | .or l r | .arith _ l r => l.attributes ++ r.attributes
  | .not t | .neg t => t.attributes
  | .call _ args => attributesAll args

/-- The attributes that the paths of terms start at. -/
def attributesAll : List Term → List String
  | [] => []
  | t :: rest => t.attributes ++ attributesAll rest

end

mutual

/-- A term is constant exactly if it starts at no attribute. -/
lemma isConstant_iff : ∀ t : Term, t.isConstant = true ↔ t.attributes = []
  | .value _ => iff_of_true rfl rfl
  | .name _ | .is .. => iff_of_false Bool.false_ne_true (List.cons_ne_nil _ _)
  | .compare _ l r _ | .and l r | .or l r | .arith _ l r => by
    rw [isConstant, attributes, Bool.and_eq_true, List.append_eq_nil_iff, isConstant_iff l,
      isConstant_iff r]
  | .not t | .neg t => by
    rw [isConstant, attributes, isConstant_iff t]
  | .call _ args => by
    rw [isConstant, attributes, areConstant_iff args]

/-- Arguments are constant exactly if they have no attributes. -/
lemma areConstant_iff : ∀ ts : List Term, areConstant ts = true ↔ attributesAll ts = []
  | [] => iff_of_true rfl rfl
  | t :: rest => by
    rw [areConstant, attributesAll, Bool.and_eq_true, List.append_eq_nil_iff, isConstant_iff t,
      areConstant_iff rest]

end

variable {env : Environment} {item item' : Item}

mutual

/-- A term has the same outcome for items that agree on its attributes. -/
lemma eval_congr : ∀ t : Term, item.AgreeOn t.attributes item' →
    t.eval env item = t.eval env item'
  | .value _, _ => rfl
  | .name path, h => Item.value_congr (h _ List.mem_cons_self)
  | .is path test isNegated, h => by
    rw [eval, eval, Item.value_congr (h _ List.mem_cons_self)]
  | .compare _ l r _, h | .and l r, h | .or l r, h | .arith _ l r, h => by
    rw [eval, eval, eval_congr l (h.mono (List.subset_append_left _ _)),
      eval_congr r (h.mono (List.subset_append_right _ _))]
  | .not t, h | .neg t, h => by
    rw [eval, eval, eval_congr t h]
  | .call f args, h => by
    rw [eval, eval, evalAll_congr args h]

/-- Arguments have the same values in items that agree on their attributes. -/
lemma evalAll_congr : ∀ ts : List Term, item.AgreeOn (attributesAll ts) item' →
    evalAll env item ts = evalAll env item' ts
  | [], _ => rfl
  | t :: rest, h => by
    rw [evalAll, evalAll, eval_congr t (h.mono (List.subset_append_left _ _)),
      evalAll_congr rest (h.mono (List.subset_append_right _ _))]

end

/-- A term is true of the same items among those that agree on its attributes. -/
lemma holds_congr {t : Term} (h : item.AgreeOn t.attributes item') :
    t.holds env item = t.holds env item' := by
  rw [holds, holds, eval_congr t h]

/-- A constant has one outcome for all items. -/
lemma eval_eq_of_isConstant {t : Term} (h : t.isConstant = true) (item item' : Item) :
    t.eval env item = t.eval env item' := by
  refine eval_congr t ?_
  rw [(isConstant_iff t).1 h]
  exact nofun

end Term

end TableQuery
