import QueueWorkerKit.Library.Json

/-!
# Values and objects of the running program

A value is a primitive or a reference to an object. An object is known by how it answers: what
class it is an instance of, what its properties read as, and what text and JSON it is converted
to. Any of these may throw a value instead, as getters, proxies and conversion methods may.

## Main definitions

* `JsValue`: primitives and references
* `JsObject C`, `Heap C`: objects by their answers, for a type `C` of classes, and all of them
* `JsValue.instanceOf`, `JsValue.property`: class tests and property reads
-/

namespace Ecma

/-- A value: a primitive, or a reference to an object. Numbers, big integers and symbols carry
their text. -/
inductive JsValue
  | undefined
  | null
  | boolean (b : Bool)
  | number (n : JsNumber)
  | bigint (text : JsString)
  | symbol (text : JsString)
  | string (s : JsString)
  | object (ref : ℕ)

/-- The answer of an operation that may throw a value. -/
abbrev Answer (α : Type) := Except JsValue α

/-- What a function throws: a value that was thrown at it, or the error the language creates when
a property of `undefined` is read. -/
inductive Failure
  | thrown (v : JsValue)
  | typeError

/-- An object by its answers: class tests, property reads, conversion to text, and
serialization, which may produce no text. -/
structure JsObject (C : Type) where
  callable : Bool
  instanceOf : C → Answer Bool
  get : String → Answer JsValue
  toText : Answer JsString
  toJson : Answer (Option JsString)

/-- The objects of a program by reference. -/
abbrev Heap (C : Type) := ℕ → JsObject C

variable {C : Type}

namespace JsValue

/-- The class test: primitives are instances of nothing. -/
def instanceOf (h : Heap C) (v : JsValue) (c : C) : Answer Bool :=
  match v with
  | object ref => (h ref).instanceOf c
  | _ => .ok false

/-- A property read: primitives have none of the properties read here. -/
def property (h : Heap C) (v : JsValue) (key : String) : Answer JsValue :=
  match v with
  | object ref => (h ref).get key
  | _ => .ok undefined

end JsValue

end Ecma
