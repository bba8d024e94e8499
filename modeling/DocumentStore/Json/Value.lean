import DocumentStore.OrderedMap
import DocumentStore.Word

/-! JSON values.

A number is an exact integer or a finite double; the two kinds differ even where they denote the
same quantity. An object holds its members as a list of entries; readers enter them in key order
(`Value.Ordered`), and a stored item, the object that a container holds, is an `OrderedMap`. -/
namespace DocumentStore.Json

/-- A JSON number: an integer as written, or a finite double. -/
inductive Number where
  | int (n : Int)
  | double (x : Float) (finite : x.isFinite = true)
deriving DecidableEq

namespace Number

/-- The number as a double, rounded to nearest where it is an integer past 53 bits. -/
def toFloat : Number → Float
  | int n => Float.ofInt n
  | double x _ => x

/-- The integer, where it is one in the signed 64-bit range. -/
def signed? : Number → Option Int
  | int n => if -Word.signedEnd ≤ n ∧ n < Word.signedEnd then some n else none
  | double .. => none

/-- The integer, where it is one in the unsigned 64-bit range. -/
def unsigned? : Number → Option Nat
  | int n => if 0 ≤ n ∧ n < Word.unsignedEnd then some n.toNat else none
  | double .. => none

/-- The number of a double, where it is finite. -/
def ofFloat? (x : Float) : Option Number :=
  if h : x.isFinite = true then some (double x h) else none

end Number

/-- A JSON value. -/
inductive Value where
  | null
  | bool (b : Bool)
  | num (n : Number)
  | str (s : String)
  | arr (elements : List Value)
  | obj (members : List (String × Value))

namespace Value

instance : Inhabited Value := ⟨null⟩

/-- An integer value. -/
def int (n : Int) : Value := num (.int n)

/-- A value, or null where there is none. -/
def ofOption (f : α → Value) : Option α → Value
  | some a => f a
  | none => null

/-- An object of members in any order, of which a later one replaces an earlier one of its name. -/
def record (members : List (String × Value)) : Value := obj (Entries.ofList members)

/-- An array of strings. -/
def texts (ss : List String) : Value := arr (ss.map str)

def text? : Value → Option String
  | str s => some s
  | _ => none

def number? : Value → Option Number
  | num n => some n
  | _ => none

/-- The member of an object under a name; other values have no members. -/
def member? (name : String) : Value → Option Value
  | obj members => Entries.find? name members
  | _ => none

/-- The value reached by following member names from the outside in. -/
def at? (v : Value) : List String → Option Value
  | [] => some v
  | name :: rest => (v.member? name).bind (·.at? rest)

mutual
/-- Every object within has its members in strictly increasing key order. -/
def Ordered : Value → Prop
  | arr elements => AllOrdered elements
  | obj members => Entries.Ordered members ∧ MembersOrdered members
  | _ => True
def AllOrdered : List Value → Prop
  | [] => True
  | v :: rest => v.Ordered ∧ AllOrdered rest
def MembersOrdered : List (String × Value) → Prop
  | [] => True
  | (_, v) :: rest => v.Ordered ∧ MembersOrdered rest
end

/-! ### Equality of values is decidable -/

mutual
def decEq : (a b : Value) → Decidable (a = b)
  | null, null => isTrue rfl
  | bool a, bool b => decidable_of_iff (a = b) (by simp)
  | num a, num b => decidable_of_iff (a = b) (by simp)
  | str a, str b => decidable_of_iff (a = b) (by simp)
  | arr a, arr b => @decidable_of_iff _ (a = b) (by simp) (decEqElements a b)
  | obj a, obj b => @decidable_of_iff _ (a = b) (by simp) (decEqMembers a b)
  | null, bool _ | null, num _ | null, str _ | null, arr _ | null, obj _
  | bool _, null | bool _, num _ | bool _, str _ | bool _, arr _ | bool _, obj _
  | num _, null | num _, bool _ | num _, str _ | num _, arr _ | num _, obj _
  | str _, null | str _, bool _ | str _, num _ | str _, arr _ | str _, obj _
  | arr _, null | arr _, bool _ | arr _, num _ | arr _, str _ | arr _, obj _
  | obj _, null | obj _, bool _ | obj _, num _ | obj _, str _ | obj _, arr _ => isFalse nofun
def decEqElements : (a b : List Value) → Decidable (a = b)
  | [], [] => isTrue rfl
  | a :: as, b :: bs =>
    @decidable_of_iff _ (a = b ∧ as = bs) (by simp)
      (@instDecidableAnd _ _ (decEq a b) (decEqElements as bs))
  | [], _ :: _ | _ :: _, [] => isFalse nofun
def decEqMembers : (a b : List (String × Value)) → Decidable (a = b)
  | [], [] => isTrue rfl
  | (j, a) :: as, (k, b) :: bs =>
    @decidable_of_iff _ (j = k ∧ a = b ∧ as = bs) (by simp [and_assoc])
      (@instDecidableAnd _ _ inferInstance
        (@instDecidableAnd _ _ (decEq a b) (decEqMembers as bs)))
  | [], _ :: _ | _ :: _, [] => isFalse nofun
end

instance : DecidableEq Value := decEq

end Value
end DocumentStore.Json
