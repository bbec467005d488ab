import JourneyPlanner.Error

namespace JourneyPlanner

/-!
Comparing alternatives on several criteria, and keeping those that no other is better than.
An alternative is better than another if it is better on some criterion and worse on none.
-/

/-- How the values of one criterion compare. -/
inductive Criterion where
  /-- The smaller value is better. -/
  | less
  /-- The smaller value is better, but values within the slack of each other are equal. -/
  | lessWithSlack (slack : Int)
  /-- Alternatives with different values do not compare at all. -/
  | mustDiffer
deriving DecidableEq, Repr

inductive Preference where
  | better | worse | equal | different
deriving DecidableEq, Repr

inductive Dominance where
  | left | right | equal | incomparable
deriving DecidableEq, Repr

namespace Criterion

/-- Sums of criterion values stay between these limits. -/
def highest : Int := 9223372036854775807

def lowest : Int := -9223372036854775808

/-- A value moved up by a slack, as far as the limits allow. -/
def relax (value slack : Int) : Int :=
  max lowest (min highest (value + slack))

def compare (criterion : Criterion) (left right : Int) : Preference :=
  match criterion with
  | less => if left < right then .better else if right < left then .worse else .equal
  | lessWithSlack slack =>
    if relax left slack < right then .better
    else if relax right slack < left then .worse
    else .equal
  | mustDiffer => if left = right then .equal else .different

end Criterion

/-- What alternatives are compared on. There is room for six criteria. -/
structure Rules where
  criteria : List Criterion
  length_le : criteria.length ≤ 6

namespace Rules

def maxCriteria : Nat := 6

/-- Rules with the criteria listed, if there is room for them. -/
def ofList (criteria : List Criterion) : Checked Rules :=
  if h : criteria.length ≤ 6 then .ok ⟨criteria, h⟩ else .error .outOfRange

/-- Compare from the first criterion on, given on which sides a better value was found. -/
def compareFrom (leftBetter rightBetter : Bool) :
    List Criterion → List Int → List Int → Dominance
  | criterion :: criteria, l :: left, r :: right =>
    match criterion.compare l r with
    | .better => compareFrom true rightBetter criteria left right
    | .worse => compareFrom leftBetter true criteria left right
    | .equal => compareFrom leftBetter rightBetter criteria left right
    | .different => .incomparable
  | _, _, _ =>
    match leftBetter, rightBetter with
    | true, false => .left
    | false, true => .right
    | false, false => .equal
    | true, true => .incomparable

def compare (rules : Rules) (left right : List Int) : Dominance :=
  compareFrom false false rules.criteria left right

def dominates (rules : Rules) (left right : List Int) : Bool :=
  rules.compare left right == .left

def covers (rules : Rules) (left right : List Int) : Bool :=
  rules.compare left right == .left || rules.compare left right == .equal

def vector (values : List Int) : Checked (List Int) :=
  if values.length ≤ maxCriteria then .ok values else .error .outOfRange

end Rules

structure Entry (α : Type) where
  item : α
  criteria : List Int

/-- Alternatives of which none is better than another, in the order they came in. -/
structure Front (α : Type) where
  entries : List (Entry α)

namespace Front

variable {α : Type}

def empty : Front α := ⟨[]⟩

def items (front : Front α) : List α := front.entries.map Entry.item

def isEmpty (front : Front α) : Bool := front.entries.isEmpty

def covers (rules : Rules) (front : Front α) (criteria : List Int) : Bool :=
  front.entries.any fun entry => rules.covers entry.criteria criteria

def insert (rules : Rules) (front : Front α) (entry : Entry α) : Front α :=
  ⟨(front.entries.filter fun other => !rules.dominates entry.criteria other.criteria) ++ [entry]⟩

/-- An insertion keeps the items that the new one does not dominate, and adds it. -/
theorem mem_insert {rules : Rules} {front : Front α} {entry other : Entry α} :
    other ∈ (front.insert rules entry).entries ↔
      other ∈ front.entries ∧ rules.dominates entry.criteria other.criteria = false ∨
        other = entry := by
  simp [insert]

/-- Offer an entry: it is put in unless an entry is better or as good, so of equal ones the
first stays. The result is the new front, or none if the entry was turned away. -/
def offer? (rules : Rules) (front : Front α) (entry : Entry α) : Option (Front α) :=
  if front.covers rules entry.criteria then none else some (front.insert rules entry)

/-- An entry is turned away exactly if some entry is better or as good. -/
theorem offer?_eq_none_iff {rules : Rules} {front : Front α} {entry : Entry α} :
    front.offer? rules entry = none ↔ front.covers rules entry.criteria = true := by
  simp [offer?]

def offer (rules : Rules) (front : Front α) (entry : Entry α) : Front α :=
  (front.offer? rules entry).getD front

def offerAll (rules : Rules) (front : Front α) (entries : List (Entry α)) : Front α :=
  entries.foldl (offer rules) front

end Front

end JourneyPlanner
