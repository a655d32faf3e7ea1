import KeyedState.Storage.Table

/-!
# Storage by script

A storage that behaves as it is told: it hands out a given sequence of keys, some of
which may be failures, and may refuse to open tables or to list keys at all. Its
tables are not kept by name, and it does not write key groups.
-/

namespace KeyedState

/-- A sequence of keys that a storage hands out: what is read from it, and the number under which
the storage knows it until it is given back. A sequence without a number is a copy, and nothing is
kept for it. -/
structure KeySequence (α : Type) where
  items : List (Except StateError α)
  number : Option Nat

/-- A sequence of which every item is read further. -/
def KeySequence.bind {α β : Type} (q : KeySequence α) (read : α → Except StateError β) :
    KeySequence β where
  items := q.items.map fun item => item >>= read
  number := q.number

/-- What a scripted storage does, how many sequences of keys it has handed out, and which of them
were given back, in order. Sequences are numbered as they are handed out. -/
structure ScriptedStorage where
  script : List (Except StateError Bytes)
  failsToOpen : Bool
  failsToList : Bool
  handedOut : Nat
  givenBack : List Nat
  givenBack_lt : ∀ n ∈ givenBack, n < handedOut

namespace ScriptedStorage

/-- A storage that has not been used. An absent key is a failure. -/
def of (keys : List (Option Bytes)) (failsToOpen failsToList : Bool) : ScriptedStorage where
  script := keys.map fun key =>
    match key with
    | some key => .ok key
    | none => .error (.failed "scripted key failure")
  failsToOpen := failsToOpen
  failsToList := failsToList
  handedOut := 0
  givenBack := []
  givenBack_lt := nofun

/-- A fresh table each time. -/
def openTable (s : ScriptedStorage) (name : String) (kind : StateKind) : Except StateError Table :=
  if s.failsToOpen then .error (.failed s!"scripted create failure for {name}")
  else .ok (.empty kind)

/-- Hands out the sequence of keys. -/
def handOut (name : String) : Action ScriptedStorage (KeySequence Bytes) :=
  .of fun s =>
    if s.failsToList then (.error (.failed s!"scripted keys failure for {name}"), s)
    else
      (.ok ⟨s.script, some s.handedOut⟩,
        { s with
          handedOut := s.handedOut + 1
          givenBack_lt := fun n given => Nat.lt_succ_of_lt (s.givenBack_lt n given) })

/-- Takes a sequence back. Only what was handed out can be. -/
def takeBack (n : Nat) (s : ScriptedStorage) : ScriptedStorage :=
  if out : n < s.handedOut then
    { s with
      givenBack := s.givenBack ++ [n]
      givenBack_lt := fun m given =>
        (List.mem_append.1 given).elim (s.givenBack_lt m) fun same =>
          List.mem_singleton.1 same ▸ out }
  else s

end ScriptedStorage

end KeyedState
