import Criteria.Settings
import Criteria.Value.Equality
import Criteria.Value.Text

namespace Criteria

/-- Whether something holds, unless finding out fails. -/
abbrev Verdict := Except Fault Bool

inductive Reading where
  | notNumeric
  | notFinite
  | finite (x : Scaled)
deriving DecidableEq

def Reading.ofExtended? : Option Extended → Reading
  | some (.finite x) => .finite x
  | _ => .notFinite

/-- Numbers are read through their text; of texts, decimal numerals are. -/
def Value.reading : Value → Except Fault Reading
  | .number (.int n) => (integerText n).map fun _ => .finite (.ofInt n)
  | .number (.float x) => .ok (.ofExtended? x.shown?)
  | .number (.decimal d) => .ok (.ofExtended? (Number.decimal d).extended?)
  | .text s =>
    match s.chars?.bind Numeral.decimal? with
    | some d => .ok (.ofExtended? (Number.decimal d).extended?)
    | none => .ok .notNumeric
  | _ => .ok .notNumeric

def mixesNumberAndText (a b : Value) : Bool :=
  (a.kind == .number && b.kind == .string) || (a.kind == .string && b.kind == .number)

/-- The order of a number and a numeric text; `none` if there is none. The left value is read first,
the right one only if the left is numeric. -/
def numericOrder? (settings : Settings) (a b : Value) : Except Fault (Option Ordering) :=
  if settings.coerce && mixesNumberAndText a b then do
    match ← a.reading with
    | .notNumeric => return none
    | .notFinite =>
      -- the other value is read all the same, for what may go wrong with it
      let _ ← b.reading
      return none
    | .finite x =>
      match ← b.reading with
      | .finite y => return some (x.compare y)
      | _ => return none
  else return none

/-- Whether two values are equal. Within one kind they are compared as wholes, with all their members. -/
def primitiveEqual (settings : Settings) (a b : Value) : Verdict :=
  -- dates and moments are compared by their milliseconds, whichever of the two they are
  match a.epochMillis?, b.epochMillis? with
  | some m, some n => .ok (m == n)
  | _, _ =>
    if a.kind.isAbsent || b.kind.isAbsent then .ok (a.kind.isAbsent && b.kind.isAbsent)
    else if a.kind = b.kind then
      match a.equal? b with
      | some r => .ok r
      | none => .error (.breakdown .invalidOperation)
    else (numericOrder? settings a b).map (· == some .eq)

def sameKindOrder? : Value → Value → Except Fault (Option Ordering)
  | .bool a, .bool b => .ok (some (compare a b))
  | .number m, .number n =>
    if m.orderInvalid n then .error (.breakdown .invalidOperation) else .ok (m.compare? n)
  | .text s, .text t => .ok (some (compare s t))
  | .bytes bs, .bytes cs => .ok (some (compare bs cs))
  | _, _ => .ok none

def order? (settings : Settings) (a b : Value) : Except Fault (Option Ordering) :=
  match a.epochMillis?, b.epochMillis? with
  | some m, some n => .ok (some (compare m n))
  | _, _ => if a.kind = b.kind then sameKindOrder? a b else numericOrder? settings a b

/-- Whether a relation holds. It never does between values without an order. -/
def related (settings : Settings) (r : Relation) (a b : Value) : Verdict :=
  (order? settings a b).map fun o => o.any r.holds

end Criteria
