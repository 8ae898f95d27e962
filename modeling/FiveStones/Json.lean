import Mathlib.Data.Rat.Floor

/-! Values as `Json::Value` holds them, and how it converts them.

Every message of a client and every answer of the server is such a value. Only reading by name and the
conversions can throw; a program path that throws ends with a `JsonError`. -/

namespace FiveStones

theorem ok_of_bind {α β ε : Type} {x : Except ε α} {f : α → Except ε β} {b : β} (h : (x >>= f) = .ok b) :
    ∃ a, x = .ok a ∧ f a = .ok b := by
  cases x with
  | error e => cases h
  | ok a => exact ⟨a, rfl, h⟩

theorem ok_of_toOption {α ε : Type} {x : Except ε α} {a : α} (h : x.toOption = some a) : x = .ok a := by
  cases x with
  | error e => cases h
  | ok b => rw [Option.some.inj h]

theorem ok_of_mapError {α ε ε' : Type} {x : Except ε α} {f : ε → ε'} {a : α} (h : x.mapError f = .ok a) : x = .ok a := by
  cases x with
  | error e => cases h
  | ok b => rw [Except.ok.inj h]

inductive JsonError
  | notObject
  | notInt
  | notUInt64
  | notString
  | notBool
  deriving DecidableEq, Repr

/-- A value. A real number comes with the text that `asString` gives for it. -/
inductive Json
  | null
  | bool (b : Bool)
  | int (n : Int)
  | real (value : Rat) (text : String)
  | str (s : String)
  | arr (items : List Json)
  | obj (members : List (String × Json))

abbrev Members := List (String × Json)

namespace Members

/-- `value[name]` read: a missing member reads as null. -/
def get (m : Members) (name : String) : Json := (m.lookup name).getD .null

def set (m : Members) (name : String) (v : Json) : Members := (name, v) :: m.filter (·.1 ≠ name)

@[simp] theorem get_set_self (m : Members) (name : String) (v : Json) : (m.set name v).get name = v := by
  simp [get, set]

theorem lookup_filter_ne {name name' : String} (h : name' ≠ name) (m : Members) :
    (m.filter (·.1 ≠ name)).lookup name' = m.lookup name' := by
  induction m with
  | nil => rfl
  | cons x m ih =>
    by_cases hx : x.1 = name
    · have hne : (name' == x.1) = false := by simpa [hx] using h
      rw [List.filter_cons_of_neg (by simpa using hx), ih, List.lookup_cons, hne]
    · rw [List.filter_cons_of_pos (by simpa using hx), List.lookup_cons, List.lookup_cons, ih]

theorem get_set_ne (m : Members) {name name' : String} (v : Json) (h : name' ≠ name) :
    (m.set name v).get name' = m.get name' := by
  have hne : (name' == name) = false := by simpa using h
  simp only [get, set, List.lookup_cons, hne, lookup_filter_ne h]

end Members

namespace Json

/-- `value[...]` on a value: null becomes an empty object, and anything but an object throws. -/
def members : Json → Except JsonError Members
  | null => .ok []
  | obj m => .ok m
  | _ => .error .notObject

/-- A value built from a 64-bit number without a sign. -/
def uint (n : UInt64) : Json := int n.toNat

def isNull : Json → Bool
  | null => true
  | _ => false

/-- A real number, cut off towards zero. -/
def truncate (q : Rat) : Int := if 0 ≤ q then ⌊q⌋ else ⌈q⌉

/-- `asInt`, to 32 bits with a sign. -/
def asInt : Json → Except JsonError Int
  | null => .ok 0
  | bool b => .ok (if b then 1 else 0)
  | int n => if -2147483648 ≤ n ∧ n ≤ 2147483647 then .ok n else .error .notInt
  | real q _ => if -2147483648 ≤ q ∧ q ≤ 2147483647 then .ok (truncate q) else .error .notInt
  | _ => .error .notInt

def asUInt64 : Json → Except JsonError UInt64
  | null => .ok 0
  | bool b => .ok (if b then 1 else 0)
  | int n => if 0 ≤ n ∧ n < 2 ^ 64 then .ok (.ofNat n.toNat) else .error .notUInt64
  | real q _ => if 0 ≤ q ∧ q < 2 ^ 64 then .ok (.ofNat (truncate q).toNat) else .error .notUInt64
  | _ => .error .notUInt64

def asBool : Json → Except JsonError Bool
  | null => .ok false
  | bool b => .ok b
  | int n => .ok (n ≠ 0)
  | real q _ => .ok (q ≠ 0)
  | _ => .error .notBool

def asString : Json → Except JsonError String
  | null => .ok ""
  | bool b => .ok (if b then "true" else "false")
  | int n => .ok (toString n)
  | real _ text => .ok text
  | str s => .ok s
  | _ => .error .notString

/-- `asCString`, which takes strings only. -/
def asCString : Json → Except JsonError String
  | str s => .ok s
  | _ => .error .notString

@[simp] theorem asUInt64_uint (n : UInt64) : (uint n).asUInt64 = .ok n := by
  have hlt : n.toNat < 18446744073709551616 := n.toNat_lt
  simp [uint, asUInt64, hlt]

end Json
end FiveStones
