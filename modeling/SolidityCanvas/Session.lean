/-
Compilations in flight, by session.

A client sends ever newer versions of its canvas under one session name. The
store remembers the newest version that was begun and the newest result that
was accepted, so that an older version never replaces a newer one.

* `begin`: whether a version is still worth compiling.
* `complete`: whether its result is accepted.
* `latest?`: the accepted result.
* `forget`: drops the session.

Each operation is one atomic step. Version numbers are 64-bit words.
-/

namespace SolidityCanvas

/-- What is known about one session. -/
structure Session (α : Type) where
  /-- The newest version begun. -/
  newest : Option UInt64 := none
  /-- The accepted result and its version. -/
  result : Option (UInt64 × α) := none

/-- Everything known about each session that was ever named. -/
structure SessionStore (α : Type) where
  sessions : List (String × Session α) := []

namespace SessionStore

variable {α : Type}

/-- The store that knows no session. -/
def empty : SessionStore α := {}

/-- What is known about a session. -/
def get (store : SessionStore α) (session : String) : Session α :=
  (store.sessions.lookup session).getD {}

/-- Replaces what is known about a session. -/
def set (store : SessionStore α) (session : String) (s : Session α) : SessionStore α :=
  { sessions := (session, s) :: store.sessions.filter (·.1 != session) }

/-- Records that a version is about to be compiled, unless a newer one has
begun. -/
def begin (store : SessionStore α) (session : String) (version : UInt64) :
    Bool × SessionStore α :=
  let s := store.get session
  match s.newest with
  | some newest =>
    if version < newest then (false, store)
    else (true, store.set session { s with newest := some version })
  | none => (true, store.set session { s with newest := some version })

/-- Stores the result compiled for a version, unless a newer one has begun or
completed. -/
def complete (store : SessionStore α) (session : String) (version : UInt64) (result : α) :
    Bool × SessionStore α :=
  let s := store.get session
  if s.newest.any (version < ·) || s.result.any (version < ·.1) then (false, store)
  else (true, store.set session { s with result := some (version, result) })

/-- The accepted result of a session and its version. -/
def latest? (store : SessionStore α) (session : String) : Option (UInt64 × α) :=
  (store.get session).result

/-- Drops everything known about a session. -/
def forget (store : SessionStore α) (session : String) : SessionStore α :=
  store.set session {}

end SessionStore

end SolidityCanvas
