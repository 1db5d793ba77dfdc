import HeapPressure.Text.Quoted

/-!
What can be wrong with a document that is well-formed: a value of another kind than the one
expected, a name that nobody knows, a field too many or too few. The wording is the same for
every document format.
-/
namespace HeapPressure.Document

/-- What a document holds at a place, as messages speak of it. -/
inductive Found where
  | null
  | boolean (b : Bool)
  | integer (n : Int)
  | real (text : String)
  | string (s : String)
  | sequence
  | map
deriving DecidableEq

/-- What a reader looks for. -/
inductive Expected where
  | unsigned64
  | signed32
  | string
  | path
  | nothing
  | record (name : String)
deriving DecidableEq

inductive Problem where
  | wrongType (found : Found) (expected : Expected)
  | outOfRange (n : Int) (expected : Expected)
  | tooShort (length : Nat) (record : String) (fields : Nat)
  | unknownField (name : String) (known : List String)
  | unknownVariant (name : String) (known : List String)
  | duplicateField (name : String)
  | missingField (name : String)
  | notVariant
  | emptyVariant
  | manyVariants
  | variantHolds (kind : String)
  | variantTableHolds
  | variantArrayHolds
deriving DecidableEq

private def ticked (s : String) : String := "`" ++ s ++ "`"

def Found.describe : Found → String
  | .null => "null"
  | .boolean b => "boolean " ++ ticked (if b then "true" else "false")
  | .integer n => "integer " ++ ticked (toString n)
  | .real text => "floating point " ++ ticked text
  | .string s => "string " ++ Text.quoted s
  | .sequence => "sequence"
  | .map => "map"

def Expected.describe : Expected → String
  | .unsigned64 => "u64"
  | .signed32 => "i32"
  | .string => "a string"
  | .path => "path string"
  | .nothing => "unit"
  | .record name => "struct " ++ name

/-- Two names are joined by "or", more are listed. -/
def oneOf : List String → String
  | [a] => ticked a
  | [a, b] => ticked a ++ " or " ++ ticked b
  | names => "one of " ++ ", ".intercalate (names.map ticked)

def Problem.message : Problem → String
  | .wrongType found expected =>
    "invalid type: " ++ found.describe ++ ", expected " ++ expected.describe
  | .outOfRange n expected =>
    "invalid value: " ++ (Found.integer n).describe ++ ", expected " ++ expected.describe
  | .tooShort length record fields =>
    "invalid length " ++ toString length ++ ", expected " ++ (Expected.record record).describe
      ++ " with " ++ toString fields ++ " elements"
  | .unknownField name known => "unknown field " ++ ticked name ++ ", expected " ++ oneOf known
  | .unknownVariant name known => "unknown variant " ++ ticked name ++ ", expected " ++ oneOf known
  | .duplicateField name => "duplicate field " ++ ticked name
  | .missingField name => "missing field " ++ ticked name
  | .notVariant => "wanted string or table"
  | .emptyVariant => "wanted exactly 1 element, found 0 elements"
  | .manyVariants => "wanted exactly 1 element, more than 1 element"
  | .variantHolds kind => "expected table, found " ++ kind
  | .variantTableHolds => "expected empty table"
  | .variantArrayHolds => "expected empty array"

end HeapPressure.Document
