/-!
# Request methods

The seven methods, their written forms, and reading one in any ASCII letter case.
-/

namespace ApiShorthand

/-- A request method. -/
inductive Method where
  /-- Read. -/
  | get
  /-- Submit. -/
  | post
  /-- Replace. -/
  | put
  /-- Change in part. -/
  | patch
  /-- Remove. -/
  | delete
  /-- Read the head only. -/
  | head
  /-- Ask for the options. -/
  | options
deriving DecidableEq, Repr

namespace Method

/-- All methods. -/
def all : List Method :=
  [get, post, put, patch, delete, head, options]

/-- The upper-case form, as in an endpoint header. -/
def name : Method → String
  | get => "GET"
  | post => "POST"
  | put => "PUT"
  | patch => "PATCH"
  | delete => "DELETE"
  | head => "HEAD"
  | options => "OPTIONS"

/-- The lower-case form, the key of an operation under its path. -/
def key : Method → String
  | get => "get"
  | post => "post"
  | put => "put"
  | patch => "patch"
  | delete => "delete"
  | head => "head"
  | options => "options"

/-- The ASCII letter in upper case; every other character stays. -/
def upperAscii (c : Char) : Char :=
  if 'a' ≤ c ∧ c ≤ 'z' then Char.ofNat (c.toNat - 32) else c

/-- The method whose name a word is, whatever the case of its ASCII letters. -/
def ofWord? (word : List Char) : Option Method :=
  all.find? fun method => method.name.toList == word.map upperAscii

/-! ### Laws -/

/-- The key is the name in lower case. -/
theorem key_eq_toLower (method : Method) : method.key = method.name.toLower := by
  cases method <;> decide +kernel

/-- Different methods have different keys. -/
theorem key_injective {a b : Method} (h : a.key = b.key) : a = b := by
  revert h
  cases a <;> cases b <;> decide

/-- A word names a method exactly when its letters in upper case are that method's name. -/
theorem ofWord?_eq_some_iff {word : List Char} {method : Method} :
    ofWord? word = some method ↔ word.map upperAscii = method.name.toList := by
  constructor
  · intro h
    have hp := List.find?_some h
    exact (beq_iff_eq.1 hp).symm
  · intro h
    cases method <;> simp [ofWord?, all, List.find?, h, name]

end Method

end ApiShorthand
