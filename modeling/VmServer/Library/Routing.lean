import Mathlib.Data.List.Basic

/-!
# Handlers behind guards and pattern routing

A handler is described by the effects it has in a context. A guard lets a
context through, possibly with more known about it, or stops it before the
handler is reached. A mux hands the context to the handler of the most
specific pattern that matches the request target.
-/

namespace Routing

/-- The effects of serving a request in a context, in order. -/
abbrev Handler (C E : Type*) := C → List E

section Guards

variable {C E : Type*}

/-- The handler is reached in the context that the guard lets through; a guard that stops the
request has an effect of its own. -/
def behind (guard : C → Except E C) (next : Handler C E) : Handler C E := fun c =>
  match guard c with
  | .error e => [e]
  | .ok c' => next c'

theorem mem_behind {guard : C → Except E C} {next : Handler C E} {c : C} {e : E} :
    e ∈ behind guard next c ↔ guard c = .error e ∨ ∃ c', guard c = .ok c' ∧ e ∈ next c' := by
  unfold behind
  cases guard c <;> simp [eq_comm]

end Guards

/-- What the mux sees of a request: the method, the segments of the path (a path that ends in
a slash has an empty last one), and whether the path is in its cleaned form. -/
structure Target where
  method : String
  segments : List String
  canonical : Bool

/-- A part of a path pattern. A pattern that ends in a slash ends in `rest`, one that ends in
`{$}` ends in an empty literal. -/
inductive Segment
  | lit (text : String)
  | wild (name : String)
  | rest
  deriving DecidableEq, Repr

structure Pattern where
  method : Option String
  path : List Segment
  deriving DecidableEq, Repr

namespace Pattern

/-- A pattern for `GET` takes `HEAD` as well. -/
def methodMatches : Option String → String → Bool
  | none, _ => true
  | some m, method => m = method || (m = "GET" && method = "HEAD")

def pathMatches : List Segment → List String → Bool
  | [], [] => true
  | [.rest], _ :: _ => true
  | .lit text :: path, x :: xs => text = x && pathMatches path xs
  | .wild _ :: path, x :: xs => x ≠ "" && pathMatches path xs
  | _, _ => false

/-- Named `takes` as `matches` is a keyword. -/
def takes (p : Pattern) (t : Target) : Bool :=
  methodMatches p.method t.method && pathMatches p.path t.segments

def methodWithin : Option String → Option String → Bool
  | _, none => true
  | none, some _ => false
  | some m, some m' => m = m' || (m' = "GET" && m = "HEAD")

def pathWithin : List Segment → List Segment → Bool
  | [], [] => true
  | _ :: _, [.rest] => true
  | .lit text :: path, .lit text' :: path' => text = text' && pathWithin path path'
  | .lit text :: path, .wild _ :: path' => text ≠ "" && pathWithin path path'
  | .wild _ :: path, .wild _ :: path' => pathWithin path path'
  | _, _ => false

/-- Every request the first pattern takes is taken by the second one. -/
def within (p q : Pattern) : Bool := methodWithin p.method q.method && pathWithin p.path q.path

theorem method_of_takes {m : String} {path : List Segment} {t : Target} (other : m ≠ "GET")
    (h : (⟨some m, path⟩ : Pattern).takes t) : t.method = m := by
  simp only [takes, methodMatches, Bool.and_eq_true, Bool.or_eq_true, decide_eq_true_eq] at h
  rcases h.1 with same | ⟨get, _⟩
  · exact same.symm
  · exact absurd get other

end Pattern

variable {C E : Type*}

/-- The registered handler of the most specific pattern that takes the request. Unless the
method is `CONNECT`, a path that is not clean is redirected and reaches no handler. -/
def choose (routes : List (Pattern × Handler C E)) (t : Target) :
    Option (Pattern × Handler C E) :=
  if t.method ≠ "CONNECT" ∧ ¬ t.canonical then none
  else
    routes.find? fun route =>
      route.1.takes t && routes.all fun other => !other.1.takes t || route.1.within other.1

/-- Requests that no pattern takes are answered by the mux itself. -/
def mux (target : C → Target) (routes : List (Pattern × Handler C E)) : Handler C E := fun c =>
  match choose routes (target c) with
  | none => []
  | some route => route.2 c

theorem mem_mux {target : C → Target} {routes : List (Pattern × Handler C E)} {c : C} {e : E}
    (h : e ∈ mux target routes c) :
    ∃ route ∈ routes, route.1.takes (target c) ∧ e ∈ route.2 c := by
  unfold mux at h
  split at h
  · cases h
  · rename_i route chosen
    unfold choose at chosen
    split at chosen
    · cases chosen
    · have found := List.find?_some chosen
      rw [Bool.and_eq_true] at found
      exact ⟨route, List.mem_of_find?_eq_some chosen, found.1, h⟩

/-- What holds of the effects of every registered handler holds of the effects of the mux. -/
theorem mux_forall {target : C → Target} {routes : List (Pattern × Handler C E)}
    {P : C → E → Prop}
    (h : ∀ route ∈ routes, ∀ c e, route.1.takes (target c) → e ∈ route.2 c → P c e) {c : C}
    {e : E} (he : e ∈ mux target routes c) : P c e := by
  obtain ⟨route, registered, takes, effect⟩ := mem_mux he
  exact h route registered c e takes effect

end Routing
