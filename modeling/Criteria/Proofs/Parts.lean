import Criteria.Proofs.Comparison
import Criteria.Proofs.Verdict

namespace Criteria
variable {settings : Settings} {c v operand : Value} {key : Option Value} {f : Fault}

/-- A part of a condition: the whole, an item of a sequence, or what stands under a key of a mapping. The
key is kept, for it tells how the part is read. -/
inductive Part (c : Value) : Option Value → Value → Prop where
  | whole : Part c none c
  | item {key : Option Value} {v x : Value} {items : List Value} :
    Part c key v → v.items? = some items → x ∈ items → Part c none x
  | entry {key : Option Value} {entries : List (Value × Value)} {e : Value × Value} :
    Part c key (.mapping entries) → e ∈ entries → Part c (some e.1) e.2

/-- What matching against a condition may end with if it comes to no verdict. -/
inductive FaultIn (settings : Settings) (c : Value) : Fault → Prop where
  | tooDeep : FaultIn settings c (tooDeep settings)
  | primitive {f : Fault} : f.OfPrimitives → FaultIn settings c f
  | unknownOperator {key : Option Value} {entries : List (Value × Value)} {e : Value × Value}
    {name : Text} :
    Part c key (.mapping entries) → e ∈ entries → Operator.ofKey? e.1 = none →
      e.1.display = .ok name → FaultIn settings c (.refusal (.unknownOperator name))
  | operandNotMapping {key operand : Value} {j : Junction} :
    Part c (some key) operand → Operator.ofKey? key = some (.junction j) →
      operand.isMapping = false → FaultIn settings c (.refusal (.operandNotMapping j))

/-- What matching a value against a condition may end with if it comes to no verdict. -/
structure MatchingFault (settings : Settings) (v c : Value) (f : Fault) : Prop where
  inCondition : FaultIn settings c f
  byNumbers : f.OfPrimitives → NumberFault v c f

theorem Part.numbers_subset (h : Part c key v) : v.numbers ⊆ c.numbers := by
  induction h with
  | whole => exact List.Subset.refl _
  | item _ hi hx ih => exact List.Subset.trans (Value.numbers_subset_of_mem_items hi hx) ih
  | entry _ he ih => exact List.Subset.trans (Value.numbers_subset_of_mem_entries he).2 ih

theorem Part.trans {key' : Option Value} {x : Value} (h : Part c key v) (hx : Part v key' x) :
    ∃ under, Part c under x := by
  induction hx with
  | whole => exact ⟨key, h⟩
  | item _ hi hx ih =>
    obtain ⟨_, hpart⟩ := ih
    exact ⟨none, hpart.item hi hx⟩
  | @entry _ _ e _ he ih =>
    obtain ⟨_, hpart⟩ := ih
    exact ⟨some e.1, hpart.entry he⟩

namespace MatchingFault

theorem ofRefusal {r : Refusal} (h : FaultIn settings c (.refusal r)) :
    MatchingFault settings v c (.refusal r) :=
  ⟨h, fun hp => nomatch hp⟩

theorem ofNumbers (h : NumberFault v c f) : MatchingFault settings v c f :=
  ⟨.primitive h.ofPrimitives, fun _ => h⟩

end MatchingFault
end Criteria
