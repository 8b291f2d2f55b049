import NanoScript.Table.Sorted
import NanoScript.Value.Basic

/-!
Contract: scopes, the places where names are bound to values.

Owns:
- scopes and the store that holds all of them;
- the chain of scopes that a name is looked for in, from the inside to the outside;
- declaring, resolving, reading and assigning names, and the causes of failure.

A store only grows: scopes are never dropped, and the parent and the depth of a scope are fixed
when it is made.  The depth of a scope bounds the walk to the outermost one.

What names stand for and which of them are constants is kept apart.  Nothing here says that a
constant stands for anything: that is a property of the operations.
-/

namespace NanoScript

/-- Why a name cannot be used as it was. -/
inductive ScopeError where
  | unresolved (name : String)
  | alreadyDeclared (name : String)
  | constantReassigned (name : String)
deriving DecidableEq

/-- What is said about the use of a name. -/
def ScopeError.message : ScopeError → String
  | .unresolved name => "Cannot resolve '" ++ name ++ "' as it does not exist"
  | .alreadyDeclared name =>
      "Cannot declare '" ++ name ++ "' as it already exists in this scope"
  | .constantReassigned name => "Cannot re-assign to '" ++ name ++ "' as it is a constant"

/-- What a name stands for, and whether for good. -/
structure Binding where
  value : Value
  constant : Bool

/-- The names declared in one place, those of them that are constants, and the scope around it. -/
structure Scope where
  parent : Option ScopeId
  depth : Nat
  values : Table Value
  constants : Table Unit

namespace Scope

/-- What a name stands for in a scope, those around it left aside. -/
def binding? (scope : Scope) (name : String) : Option Binding :=
  (scope.values.find? name).map fun value => ⟨value, scope.constants.contains name⟩

/-- The scope in which a name stands for something else.  It becomes a constant if the binding says
so; what is a constant stays one. -/
def bind (scope : Scope) (name : String) (binding : Binding) : Scope :=
  { scope with
    values := scope.values.insert name binding.value
    constants :=
      if binding.constant then scope.constants.insert name () else scope.constants }

end Scope

/-- All scopes, in the order in which they were made, and how many texts were read. -/
structure Store where
  scopes : Array Scope
  texts : Nat

namespace Store

/-- The store without any scope. -/
def empty : Store :=
  ⟨#[], 0⟩

/-- A scope of the store. -/
def scope? (store : Store) (id : ScopeId) : Option Scope :=
  store.scopes[id.index]?

/-- How many scopes lie around a scope. -/
def depth (store : Store) (id : ScopeId) : Nat :=
  ((store.scope? id).map Scope.depth).getD 0

/-- The scope around a scope. -/
def parent? (store : Store) (id : ScopeId) : Option ScopeId :=
  (store.scope? id).bind Scope.parent

/-- What a name stands for in one scope, those around it left aside. -/
def binding? (store : Store) (id : ScopeId) (name : String) : Option Binding :=
  (store.scope? id).bind fun scope => scope.binding? name

/-- Whether one scope declares a name. -/
def declares (store : Store) (id : ScopeId) (name : String) : Bool :=
  (store.binding? id name).isSome

/-- Whether a name is among the constants of one scope. -/
def isConstant (store : Store) (id : ScopeId) (name : String) : Bool :=
  ((store.scope? id).map fun scope => scope.constants.contains name).getD false

/-! ## Making scopes -/

/-- The scope that is made next. -/
def nextId (store : Store) : ScopeId :=
  ⟨store.scopes.size⟩

/-- The store with one more scope. -/
def push (store : Store) (scope : Scope) : Store :=
  { store with scopes := store.scopes.push scope }

/-- Make an empty scope with no scope around it. -/
def addOutermost (store : Store) : ScopeId × Store :=
  (store.nextId, store.push ⟨none, 0, .empty, .empty⟩)

/-- Make an empty scope inside another one. -/
def addEnclosed (store : Store) (parent : ScopeId) : ScopeId × Store :=
  (store.nextId, store.push ⟨some parent, store.depth parent + 1, .empty, .empty⟩)

/-- Number a text that is read. -/
def addText (store : Store) : Nat × Store :=
  (store.texts, { store with texts := store.texts + 1 })

/-! ## Binding names -/

/-- The store in which a name of one scope stands for something else. -/
def bind (store : Store) (id : ScopeId) (name : String) (binding : Binding) : Store :=
  { store with scopes := store.scopes.modify id.index fun scope => scope.bind name binding }

/-- The scope that a name can be declared in: this one, unless it declares the name already.  The
scopes around it do not matter. -/
def declarable (store : Store) (id : ScopeId) (name : String) : Except ScopeError ScopeId :=
  if store.declares id name then .error (.alreadyDeclared name) else .ok id

/-- Declare a name in one scope. -/
def declare (store : Store) (id : ScopeId) (name : String) (value : Value) (constant : Bool) :
    Except ScopeError Store :=
  match store.declarable id name with
  | .ok scope => .ok (store.bind scope name ⟨value, constant⟩)
  | .error error => .error error

/-- Make a name of one scope a constant, over whatever it stood for. -/
def define (store : Store) (id : ScopeId) (name : String) (value : Value) : Store :=
  store.bind id name ⟨value, true⟩

/-! ## Finding names -/

/-- A scope and those around it, as many as the number of steps allows. -/
def chainWithin (store : Store) : (steps : Nat) → ScopeId → List ScopeId
  | 0, id => [id]
  | steps + 1, id =>
      match store.parent? id with
      | none => [id]
      | some parent => id :: store.chainWithin steps parent

/-- A scope and all those around it, from the inside to the outside. -/
def chain (store : Store) (id : ScopeId) : List ScopeId :=
  store.chainWithin (store.depth id) id

/-- The innermost scope of a chain that declares a name. -/
def resolve (store : Store) (id : ScopeId) (name : String) : Except ScopeError ScopeId :=
  match (store.chain id).find? fun scope => store.declares scope name with
  | some scope => .ok scope
  | none => .error (.unresolved name)

/-- What a name stands for in a scope or, failing that, in the nearest one around it. -/
def lookup (store : Store) (id : ScopeId) (name : String) : Except ScopeError Value :=
  match (store.chain id).findSome? fun scope => store.binding? scope name with
  | some binding => .ok binding.value
  | none => .error (.unresolved name)

/-- The scope that a name can be assigned in: the nearest one that declares it, unless as a
constant. -/
def assignable (store : Store) (id : ScopeId) (name : String) : Except ScopeError ScopeId :=
  match store.resolve id name with
  | .error error => .error error
  | .ok scope =>
      if store.isConstant scope name then .error (.constantReassigned name) else .ok scope

/-- Let a name stand for another value in the nearest scope that declares it. -/
def assign (store : Store) (id : ScopeId) (name : String) (value : Value) :
    Except ScopeError Store :=
  match store.assignable id name with
  | .ok scope => .ok (store.bind scope name ⟨value, false⟩)
  | .error error => .error error

/-- The names that one scope declares, in ascending order. -/
def declaredNames (store : Store) (id : ScopeId) : List String :=
  ((store.scope? id).map fun scope => Table.sortedNames scope.values.names).getD []

/-- The names that stand for something in a scope, each once and in ascending order. -/
def visibleNames (store : Store) (id : ScopeId) : List String :=
  Table.sortedNames ((store.chain id).flatMap store.declaredNames)

end Store

end NanoScript
