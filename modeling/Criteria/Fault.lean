import Criteria.Calendar.IsoText
import Criteria.Calendar.Literal
import Criteria.Json.Reader
import Criteria.Operator
import Criteria.Text.Quoted
import Criteria.Text.Utf8

namespace Criteria

inductive Role where
  | record
  | criteria
deriving DecidableEq, Repr

def Role.name : Role → String
  | record => "record"
  | criteria => "criteria"

def Role.title : Role → String
  | record => "Record"
  | criteria => "Criteria"

inductive Refusal where
  /-- The record or the criteria are no mapping. -/
  | notMappings (record criteria : Kind)
  /-- A key of the criteria is no text. -/
  | keyNotText (typeName literal : String)
  /-- The operand of a junction is no mapping. -/
  | operandNotMapping (j : Junction)
  | unknownOperator (name : Text)
  | conditionTooDeep (limit : Nat)
  | segmentTooDeep (segment : Text) (limit : Int)
  /-- The depth limit in the environment is none. -/
  | badDepth (raw : Text)
  | notJson (role : Role) (path : Text) (problem : Json.Located)
  | documentNotMapping (role : Role) (path : Text) (typeName : String)
  /-- A criteria document is not of the shape that evaluation relies on. -/
  | badShape (path problem : Text)
  /-- What a date wrapper holds is no text. -/
  | dateNotText (literal : String)
  | badDate (text : Text) (problem : IsoReader.Problem)
deriving DecidableEq, Repr

inductive Breakdown where
  /-- An undefined decimal was compared. -/
  | invalidOperation
  /-- An integer is beyond the digit limit and cannot be written. -/
  | integerTooLong
  /-- A numeral is beyond the digit limit and cannot be read. -/
  | numeralTooLong (digits : Nat)
  | missingFile (role : Role) (path : Text)
  | isDirectory (path : Text)
  | notUtf8 (fault : Text.Utf8Fault)
  /-- Two keys have no order. -/
  | keysUnordered (left right : String)
  /-- Moments with and without an offset have no order. -/
  | offsetsUnordered
  /-- A day and a moment have no order. -/
  | datesUnordered
  | keyNotWritable (typeName : String)
  | valueNotWritable (typeName : String)
  /-- Bytes that are shown as text are no UTF-8 from the byte `lead` on. -/
  | bytesNotText (lead : UInt8) (position : Nat)
  /-- A value is nested deeper than is followed when it is written out. -/
  | valueTooDeep
  /-- A stream that takes characters only was given surrogates. -/
  | notEncodable (run : Text.SurrogateRun)
deriving DecidableEq, Repr

inductive Fault where
  | refusal (r : Refusal)
  | breakdown (b : Breakdown)
deriving DecidableEq, Repr

inductive Category where
  | evaluation
  | invalidCriteria
  | unsupportedOperation
  | depth
  | configuration
deriving DecidableEq, Repr

def Category.code : Category → String
  | evaluation => "EVALUATION_ERROR"
  | invalidCriteria => "INVALID_CRITERIA"
  | unsupportedOperation => "UNSUPPORTED_OPERATION"
  | depth => "MAX_DEPTH_EXCEEDED"
  | configuration => "INVALID_CONFIG"

def Category.name : Category → String
  | evaluation => "EligibilityError"
  | invalidCriteria => "InvalidCriteriaError"
  | unsupportedOperation => "UnsupportedOperationError"
  | depth => "EvaluationDepthError"
  | configuration => "ConfigurationError"

def depthVariable : String := "ELIGIBILITY_MAX_DEPTH"

def dateKey : Text := "$date"

def depthBound : Nat := 120

namespace Refusal

def category : Refusal → Category
  | unknownOperator _ => .unsupportedOperation
  | conditionTooDeep _ => .depth
  | segmentTooDeep .. => .depth
  | badDepth _ => .configuration
  | _ => .invalidCriteria

def message : Refusal → Text
  | notMappings .. => "Both record and criteria should be objects"
  | keyNotText typeName _ => "Criteria paths must be strings, got " ++ typeName
  | operandNotMapping j => "Conditions for logical operation '" ++ j.name ++ "' must be an object"
  | unknownOperator name => "Unsupported operation: " ++ name
  | conditionTooDeep limit => "Condition nesting exceeded maximum depth of " ++ Nat.repr limit
  | segmentTooDeep segment limit =>
    "Path segment '" ++ segment ++ "' nests deeper than " ++ toString limit ++ " sequences"
  | badDepth raw =>
    "Invalid " ++ depthVariable ++ " " ++ Text.quoted raw ++ ": expected an integer from 1 to " ++
      Nat.repr depthBound
  | notJson role path problem =>
    "Invalid JSON in " ++ role.name ++ " file " ++ path ++ ": " ++ problem.message
  | documentNotMapping role path typeName =>
    "Top level of " ++ role.name ++ " file " ++ path ++ " must be an object, got " ++ typeName
  | badShape path problem => "Invalid criteria in " ++ path ++ ": " ++ problem
  | dateNotText literal => dateKey ++ " value must be an ISO-8601 string, got " ++ literal
  | badDate text problem =>
    "Invalid " ++ dateKey ++ " value " ++ Text.quoted text ++ ": " ++
      problem.message (Text.quoted (IsoReader.expandZulu text))

/-- What a refusal reports besides its message. -/
def context : Refusal → List (String × Text)
  | notMappings record criteria => [("record_kind", record.name), ("criteria_kind", criteria.name)]
  | keyNotText _ literal => [("path", literal)]
  | operandNotMapping j => [("operator", j.name)]
  | badShape path _ => [("path", path)]
  | _ => []

def text (r : Refusal) : Text := "[" ++ r.category.code ++ "] " ++ r.message

end Refusal

def Text.Utf8Problem.message : Text.Utf8Problem → String
  | .invalidStart => "invalid start byte"
  | .invalidContinuation => "invalid continuation byte"
  | .unexpectedEnd => "unexpected end of data"

/-- One byte is shown; of more only the places are. -/
def Text.Utf8Fault.message (f : Text.Utf8Fault) : String :=
  "'utf-8' codec can't decode " ++
    (if f.stop = f.start + 1 then
      "byte 0x" ++ String.ofList (Text.hexDigits 2 f.lead.toNat) ++ " in position " ++ Nat.repr f.start
    else "bytes in position " ++ Nat.repr f.start ++ "-" ++ Nat.repr (f.stop - 1)) ++
    ": " ++ f.problem.message

/-- One surrogate is shown; of more only the places are. -/
def Text.SurrogateRun.message (run : Text.SurrogateRun) : String :=
  "'utf-8' codec can't encode " ++
    (match run.points with
    | [p] => "character '" ++ String.ofList (Text.numericEscape p.toNat) ++ "' in position " ++ Nat.repr run.start
    | ps =>
      "characters in position " ++ Nat.repr run.start ++ "-" ++ Nat.repr (run.start + ps.length - 1)) ++
    ": surrogates not allowed"

namespace Breakdown

def name : Breakdown → String
  | invalidOperation => "InvalidOperation"
  | integerTooLong => "ValueError"
  | numeralTooLong _ => "ValueError"
  | missingFile .. => "FileNotFoundError"
  | isDirectory _ => "IsADirectoryError"
  | notUtf8 _ => "UnicodeDecodeError"
  | keysUnordered .. => "TypeError"
  | offsetsUnordered => "TypeError"
  | datesUnordered => "TypeError"
  | keyNotWritable _ => "TypeError"
  | valueNotWritable _ => "TypeError"
  | bytesNotText .. => "UnicodeDecodeError"
  | valueTooDeep => "ValueError"
  | notEncodable _ => "UnicodeEncodeError"

def message : Breakdown → Text
  | invalidOperation => "[<class 'decimal.InvalidOperation'>]"
  | integerTooLong =>
    "Exceeds the limit (4300 digits) for integer string conversion; " ++
      "use sys.set_int_max_str_digits() to increase the limit"
  | numeralTooLong digits =>
    "Exceeds the limit (4300 digits) for integer string conversion: value has " ++ Nat.repr digits ++
      " digits; use sys.set_int_max_str_digits() to increase the limit"
  | missingFile role path => role.title ++ " file not found: " ++ path
  | isDirectory path => "[Errno 21] Is a directory: " ++ Text.quoted path
  | notUtf8 fault => fault.message
  | keysUnordered left right =>
    "'<' not supported between instances of '" ++ left ++ "' and '" ++ right ++ "'"
  | offsetsUnordered => "can't compare offset-naive and offset-aware datetimes"
  | datesUnordered => "can't compare datetime.datetime to datetime.date"
  | keyNotWritable typeName => "keys must be str, int, float, bool or None, not " ++ typeName
  | valueNotWritable typeName => "Object of type " ++ typeName ++ " is not JSON serializable"
  | bytesNotText lead position =>
    "'utf-8' codec can't decode byte 0x" ++ String.ofList (Text.hexDigits 2 lead.toNat) ++
      " in position " ++ Nat.repr position ++ ": invalid utf-8"
  | valueTooDeep => "Circular reference detected (depth exceeded)"
  | notEncodable run => run.message

end Breakdown

def Fault.text : Fault → Text
  | refusal r => r.text
  | breakdown b => b.message

end Criteria
