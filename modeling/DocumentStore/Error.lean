import DocumentStore.Criteria.Operator
import DocumentStore.Json.Printer
import DocumentStore.Operation
import DocumentStore.Term.Basic

/-! Why an operation fails, and the wording of each failure.

A failure that is reported has one of ten kinds; the four kinds with several causes list them. Beside
these an `Error` may be a panic: the program stops, and nobody handles the failure. `Error.message` is the
only place where a failure is put into words. -/
namespace DocumentStore
open Json (Value)

/-- A request that is refused for what it asks. -/
inductive Violation where
  /-- A join of criteria without a list of them. -/
  | joinWithoutTerms
  /-- A join of criteria with an empty list of them. -/
  | joinOfNoTerms
  /-- A leaf of criteria that names no attribute. -/
  | missingAttribute (op : Operator)
  | objectLiteral
  | nestedLiteral (v : Value)
  /-- An array literal whose elements differ in type. -/
  | mixedArray (expected found : DataType)
  /-- A search for a join without terms. -/
  | emptyJoin
  /-- A search for a leaf that lacks a side, given by its text. -/
  | missingSide (leaf : String)
  | emptyInput (op : Operation)
  | oversizedInput (op : Operation) (most : Nat)
  | blankPartition
  | missingCriteria
  | limitTooLarge (most : Nat)
  | blankId
  /-- An item without a value at the partition key path. -/
  | missingPartitionKey (path : String)
  /-- A query row without a partition key value. -/
  | unknownPartition (id container : String)
  /-- An expiry that is neither a tick count nor a date. -/
  | badExpiry (name : String) (v : Value)
  | other (text : String)
deriving DecidableEq

/-- Settings that are missing. -/
inductive Misconfiguration where
  | unknownContainer (name : String) (op : Operation)
  | missingSetting (name : String)
  | other (text : String)
deriving DecidableEq

/-- Criteria that cannot be carried out. -/
inductive Misuse where
  /-- An operator that filters know no meaning for. -/
  | unsupportedOperator (op : Operator)
  /-- An operator that query text has no symbol for. -/
  | operatorWithoutSymbol
  | missingOperand
  /-- Membership in what is no list, or an empty one. -/
  | emptyMembership
  /-- A range without exactly two bounds. -/
  | boundCount
  | other (text : String)
deriving DecidableEq

/-- A criteria document of the wrong form. -/
inductive Malformation where
  | notAnObject (v : Value)
  | operatorMissing
  | operatorNotText (v : Value)
  | unknownOperator (name : String)
  | other (text : String)
deriving DecidableEq

/-- Why the program stops. -/
inductive Panic where
  /-- A sum that no machine word holds. -/
  | overflow
  /-- A sort that comes upon elements in no order. -/
  | disorder
deriving DecidableEq

inductive Error where
  | validation (cause : Violation)
  | configuration (cause : Misconfiguration)
  | duplicateKey (text : String)
  /-- A term read as a shape it does not have. -/
  | typeMismatch (actual requested : String)
  | notFound (id container : String)
  /-- A failure that the backend reports, with its status code where it has one. -/
  | backend (status : Option Nat) (text : String)
  | argument (cause : Misuse)
  | parse (cause : Malformation)
  | notSupported (text : String)
  /-- JSON that cannot be read as, or made from, what it should be. -/
  | serialization (text : String)
  /-- No failure that is reported: the program stops. -/
  | panic (cause : Panic)
deriving DecidableEq

def Violation.message : Violation → String
  | joinWithoutTerms => "Invalid Search Criteria!"
  | joinOfNoTerms => "'searchTerms' of a logical search expression cannot be empty"
  | missingAttribute op => "'" ++ op.name ++ "' expression requires a non-empty string 'left' operand"
  | objectLiteral => "object literals are not supported in search criteria"
  | nestedLiteral v => "nested literal " ++ v.text ++ " is not supported in search criteria"
  | mixedArray expected found =>
    "array literal mixes " ++ expected.name ++ " and " ++ found.name ++ " elements"
  | emptyJoin => "a logical search expression cannot be empty"
  | missingSide leaf => "the operands of binary expression '" ++ leaf ++ "' cannot be null"
  | emptyInput op => "Input for '" ++ op.name ++ "' operation cannot be null or empty."
  | oversizedInput op most =>
    "Input for '" ++ op.name ++ "' operation cannot exceed the maximum allowed size of " ++
      toString most ++ "."
  | blankPartition => "Partition key value cannot be null or empty."
  | missingCriteria => "Search criteria cannot be null."
  | limitTooLarge most => "Limit cannot exceed the maximum allowed value of " ++ toString most ++ "."
  | blankId => "Id cannot be null or empty."
  | missingPartitionKey path => "Item is missing a value for partition key '" ++ path ++ "'."
  | unknownPartition id container =>
    "Item " ++ id ++ " in " ++ container ++ " has no partition key value."
  | badExpiry name v =>
    "Time to live attribute '" ++ name ++ "' must hold a tick count or a date, got " ++ v.text ++ "."
  | other text => text

def Misconfiguration.message : Misconfiguration → String
  | unknownContainer name op =>
    "Invalid container name '" ++ name ++ "' for " ++ op.name ++ " operation."
  | missingSetting name => "connection setting " ++ name ++ " is not configured"
  | other text => text

def Misuse.message : Misuse → String
  | unsupportedOperator op => "Unsupported query operator '" ++ op.name ++ "'."
  | operatorWithoutSymbol => "Unsupported query operator."
  | missingOperand => "Binary expression must have both left and right terms."
  | emptyMembership => "The right-hand side of an IN operator must be a non-empty collection."
  | boundCount => "Between requires exactly two bounds."
  | other text => text

def Malformation.message : Malformation → String
  | notAnObject v => "search criteria must be a JSON object, got " ++ v.text
  | operatorMissing => "search criteria node is missing 'op'"
  | operatorNotText v => "'op' must be a string, got " ++ v.text
  | unknownOperator name => "'" ++ name ++ "' is not a recognized query operator"
  | other text => text

def Panic.message : Panic → String
  | overflow => "attempt to add with overflow"
  | disorder => "user-provided comparison function does not correctly implement a total order"

namespace Error

def message : Error → String
  | validation cause => "Validation error: " ++ cause.message
  | configuration cause => "Configuration error: " ++ cause.message
  | duplicateKey text => "Duplicate key: " ++ text
  | typeMismatch actual requested =>
    "Type mismatch: term holds " ++ actual ++ ", requested " ++ requested
  | notFound id container => "Item " ++ id ++ " not found in container " ++ container
  | backend none text => "Backend error: " ++ text
  | backend (some status) text => "Backend error (" ++ toString status ++ "): " ++ text
  | argument cause => "Argument error: " ++ cause.message
  | parse cause => "Parse error: " ++ cause.message
  | notSupported text => "Not supported: " ++ text
  | serialization text => "Serialization error: " ++ text
  | panic cause => cause.message

/-- The status code of a failure that stems from a backend. -/
def status : Error → Option Nat
  | backend status _ => status
  | notFound .. => some 404
  | _ => none

/-- Ids given more than once to an operation that needs them distinct. -/
def duplicateIds (op : Operation) (container : String) : Error :=
  duplicateKey <| "The input for '" ++ op.name ++ "' operation cannot have duplicate values against '" ++
    container ++ "'."

/-- A document that is no JSON object, and so no item of a container. -/
def notAnItem (container : String) (v : Value) : Error :=
  serialization <| "expected a JSON object for container " ++ container ++ ", got " ++ v.text

/-- JSON that is not of the form of what it is read as. -/
def unreadable (what : String) : Error := serialization <| "cannot be read as " ++ what

end Error

/-- The outcome of what may fail. -/
abbrev Result (α : Type) := Except Error α

end DocumentStore
