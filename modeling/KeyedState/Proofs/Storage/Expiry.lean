import KeyedState.Proofs.Action
import KeyedState.Proofs.Table.Groups
import KeyedState.Proofs.Table.Requests
import KeyedState.Storage.Ttl
import Mathlib.Data.List.Basic
import Mathlib.Data.List.Induction
import Mathlib.Logic.Function.Basic

/-!
# Expiry over whole histories

A table that is written only behind expiry keeps, for each address, a payload with its
stamp, and both are told by the history of requests alone (`entryAfter`,
`entryAfter_eq_some_iff`). Every read, whether by `get`, by `remove` or among the
entries of a slot, delivers what that entry shows at its time, and what it leaves of the
entry is one rule (`Entry.afterRead`); listing the entries is the same as reading every
user key in turn (`perform_entries_eq_readEach`).

Main statement: `expiry_follows_history`.
-/

namespace KeyedState.Ttl

variable (c : TtlConfig)

/-! ## Policies -/

theorem refreshesOnRead_iff : refreshesOnRead c = true ↔ c.update = .onReadAndWrite := beq_iff_eq

theorem returnsExpired_iff : returnsExpired c = true ↔ c.visibility = .returnExpired := beq_iff_eq

theorem returnsExpired_eq_false_iff :
    returnsExpired c = false ↔ c.visibility = .neverReturnExpired := by
  rw [returnsExpired]
  cases c.visibility with
  | returnExpired => exact iff_of_false nofun nofun
  | neverReturnExpired => exact iff_of_true rfl rfl

/-! ## Entries and histories -/

/-- A payload that was put, and its stamp. -/
structure Entry where
  stamp : UInt64
  payload : Bytes

namespace Entry

/-- The bytes in which an entry is kept. -/
def stored (e : Entry) : Bytes := stamped e.stamp e.payload

/-- What a read delivers. -/
def visible (now : UInt64) (e : Entry) : Option Bytes :=
  if hasExpired c e.stamp now && !returnsExpired c then none else some e.payload

/-- What a read leaves: of an expired entry nothing, unless it may still be returned; an entry that
is live has its stamp refreshed, if reads do that. -/
def afterRead (now : UInt64) (e : Entry) : Option Entry :=
  if hasExpired c e.stamp now then if returnsExpired c then some e else none
  else some (if refreshesOnRead c then ⟨now, e.payload⟩ else e)

end Entry

/-- Requests with the readings of the clock, the oldest first. -/
abbrev History := List (UInt64 × Request)

/-- A request reads the entry at an address and leaves it there. -/
def reads (a : Address) : Request → Bool
  | .get b => b == a
  | .entries s => a.slot == s && a.userKey.isSome
  | _ => false

/-- A request replaces or deletes whatever is at an address. -/
def takes (a : Address) : Request → Bool
  | .put b _ => b == a
  | .remove b => b == a
  | .clear s => a.slot == s
  | _ => false

/-- What a request leaves at an address. -/
def keep (now : UInt64) (r : Request) (a : Address) (kept : Option Entry) : Option Entry :=
  match r with
  | .put b payload => if b = a then some ⟨now, payload⟩ else kept
  | r => if takes a r then none else if reads a r then kept.bind (Entry.afterRead c now) else kept

/-- The entry at an address after a history. -/
def entryAfter (past : History) (a : Address) : Option Entry :=
  past.foldl (fun kept x => keep c x.1 x.2 a kept) none

/-- The table after a history of requests to the layer around it. -/
def tableAfter (kind : StateKind) (past : History) : Table :=
  past.foldl (fun t x => (((store c x.1 Table.store).perform x.2).perform t).2) (.empty kind)

@[simp] theorem entryAfter_nil (a : Address) : entryAfter c [] a = none := rfl

theorem entryAfter_append (past : History) (now : UInt64) (r : Request) (a : Address) :
    entryAfter c (past ++ [(now, r)]) a = keep c now r a (entryAfter c past a) := by
  simp [entryAfter]

theorem tableAfter_append (kind : StateKind) (past : History) (now : UInt64) (r : Request) :
    tableAfter c kind (past ++ [(now, r)]) =
      (((store c now Table.store).perform r).perform (tableAfter c kind past)).2 := by
  simp [tableAfter]

/-! ## Stamps -/

/-- A stamp reads back in front of its payload. -/
theorem unstamp_stamped (time : UInt64) (value : Bytes) :
    unstamp (stamped time value) = .ok (time, value) := by
  have split := splitExactly_append (bigEndian 8 time.toNat) value
  rw [length_bigEndian] at split
  have bound : time.toNat < 256 ^ 8 := time.toNat_lt
  simp [unstamp, stamped, split, ofBigEndian_bigEndian bound]

/-! ## Reading one entry -/

/-- The table keeps exactly the given entries. -/
def Represents (t : Table) (kept : Address → Option Entry) : Prop :=
  ∀ a, t.get a = (kept a).map Entry.stored

namespace Represents

variable {t : Table} {kept : Address → Option Entry}

theorem congr (rep : Represents t kept) {kept' : Address → Option Entry}
    (same : ∀ a, kept a = kept' a) : Represents t kept' := by
  intro a
  rw [rep a, same a]

/-- A table that holds nothing keeps no entries. -/
theorem empty (kind : StateKind) : Represents (.empty kind) fun _ => none := by
  intro a
  rw [Table.get, Table.slot_empty, Slot.get_empty]
  rfl

theorem put (rep : Represents t kept) (a : Address) (e : Entry) :
    Represents (t.put a e.stored) (Function.update kept a (some e)) := by
  intro b
  rw [Table.get_put, Function.update_apply]
  split
  · rfl
  · exact rep b

theorem remove (rep : Represents t kept) (a : Address) :
    Represents (t.remove a) (Function.update kept a none) := by
  intro b
  rw [Table.get_remove, Function.update_apply]
  split
  · rfl
  · exact rep b

theorem clear (rep : Represents t kept) (s : SlotAddress) :
    Represents (t.clear s) fun b => if b.slot = s then none else kept b := by
  intro b
  by_cases h : b.slot = s
  · simp [Table.get_clear, h]
  · simpa [Table.get_clear, h] using rep b

end Represents

variable {c} {t : Table} {kept : Address → Option Entry}

/-- Reading a stored entry delivers what it shows, and leaves of it what a read leaves. -/
theorem perform_deliver (rep : Represents t kept) {a : Address} {e : Entry}
    (found : kept a = some e) (now : UInt64) :
    ∃ t', (deliver c now Table.store a e.stored).perform t = (.ok (e.visible c now), t') ∧
      Represents t' (Function.update kept a (e.afterRead c now)) := by
  have unchanged : Represents t (Function.update kept a (some e)) := by
    rwa [← found, Function.update_eq_self]
  have payload : (Action.lift (unstamp e.stored) : Action Table _).perform t =
      (.ok (e.stamp, e.payload), t) := by
    rw [Action.perform_lift, Entry.stored, unstamp_stamped]
  -- an expired entry goes unless it may still be shown; a live one is put again if reads refresh
  rw [deliver, Action.perform_bind_ok payload]
  simp only [Entry.visible, Entry.afterRead]
  cases expired : hasExpired c e.stamp now with
  | true =>
      cases returned : returnsExpired c with
      | true => exact ⟨t, rfl, unchanged⟩
      | false => exact ⟨t.remove a, rfl, rep.remove a⟩
  | false =>
      cases refreshed : refreshesOnRead c with
      | true => exact ⟨t.put a (stamped now e.payload), rfl, rep.put a ⟨now, e.payload⟩⟩
      | false => exact ⟨t, rfl, unchanged⟩

variable (c)

/-- What a read of an address delivers. -/
def visibleIn (kept : Address → Option Entry) (now : UInt64) (a : Address) : Option Bytes :=
  (kept a).bind (Entry.visible c now)

variable {c}

/-- Nothing is done where nothing is stored. -/
theorem perform_get_of_none {a : Address} (vacant : t.get a = none) (now : UInt64) :
    ((store c now Table.store).get a).perform t = (.ok none, t) := by
  have inner : (Table.store.get a).perform t = (.ok none, t) := by rw [← vacant]; rfl
  simp only [Store.get, store] at inner ⊢
  rw [Action.perform_bind_ok inner]
  rfl

/-- What is stored is delivered. -/
theorem perform_get_of_some {a : Address} {bytes : Bytes} (found : t.get a = some bytes)
    (now : UInt64) :
    ((store c now Table.store).get a).perform t =
      (deliver c now Table.store a bytes).perform t := by
  have inner : (Table.store.get a).perform t = (.ok (some bytes), t) := by rw [← found]; rfl
  simp only [Store.get, store] at inner ⊢
  rw [Action.perform_bind_ok inner]

/-- Getting an address reads its entry, if there is one. -/
theorem perform_get (rep : Represents t kept) (now : UInt64) (a : Address) :
    ∃ t', ((store c now Table.store).get a).perform t = (.ok (visibleIn c kept now a), t') ∧
      Represents t' (Function.update kept a ((kept a).bind (Entry.afterRead c now))) := by
  have stored := rep a
  rw [visibleIn]
  cases found : kept a with
  | none =>
      rw [found] at stored
      refine ⟨t, perform_get_of_none stored now, ?_⟩
      rwa [Option.bind_none, ← found, Function.update_eq_self]
  | some e =>
      rw [found] at stored
      rw [perform_get_of_some stored]
      exact perform_deliver rep found now

/-! ## Reading the entries of a slot -/

variable (c)

/-- Reads the given user keys of a slot in turn, and lists those with a value. -/
def readEach (now : UInt64) (s : SlotAddress) : List Bytes → Action Table (List (Bytes × Bytes))
  | [] => return []
  | userKey :: rest => do
    let value ← (store c now Table.store).get (s.entry userKey)
    let others ← readEach now s rest
    return (value.map (userKey, ·)).toList ++ others

/-- The entries after user keys of a slot were read. -/
def afterReads (now : UInt64) (s : SlotAddress) (userKeys : List Bytes)
    (kept : Address → Option Entry) (a : Address) : Option Entry :=
  if ∃ k ∈ userKeys, a = s.entry k then (kept a).bind (Entry.afterRead c now) else kept a

/-- The address of a user key that is not listed is none of those listed. -/
theorem entry_ne_of_not_mem (s : SlotAddress) {k : Bytes} {userKeys : List Bytes}
    (new : k ∉ userKeys) : ∀ k' ∈ userKeys, s.entry k' ≠ s.entry k := by
  intro k' member same
  rw [show k' = k by simpa [SlotAddress.entry] using same] at member
  exact new member

/-- Reading a user key and then others is reading them all. -/
theorem afterReads_cons (now : UInt64) (s : SlotAddress) {k : Bytes} {rest : List Bytes}
    (new : ∀ k' ∈ rest, s.entry k' ≠ s.entry k) (kept : Address → Option Entry) :
    afterReads c now s rest
        (Function.update kept (s.entry k) ((kept (s.entry k)).bind (Entry.afterRead c now))) =
      afterReads c now s (k :: rest) kept := by
  funext a
  simp only [afterReads]
  by_cases first : a = s.entry k
  · have notRest : ¬ ∃ k' ∈ rest, a = s.entry k' := by
      rintro ⟨k', member, same⟩
      exact new k' member (same.symm.trans first)
    rw [if_neg notRest, if_pos ⟨k, List.mem_cons_self, first⟩, first, Function.update_self]
  · rw [Function.update_of_ne first]
    simp [first]

variable {c}

/-- What reading user keys in turn finds, and what it leaves. -/
theorem perform_readEach (now : UInt64) (s : SlotAddress) {userKeys : List Bytes}
    (distinct : userKeys.Nodup) (rep : Represents t kept) :
    ∃ t', (readEach c now s userKeys).perform t =
        (.ok (userKeys.filterMap fun k => (visibleIn c kept now (s.entry k)).map (k, ·)), t') ∧
      Represents t' (afterReads c now s userKeys kept) := by
  -- the user keys are distinct, so reading one leaves the entries of the others
  induction userKeys generalizing t kept with
  | nil => exact ⟨t, rfl, by simpa [Represents, afterReads] using rep⟩
  | cons k rest ih =>
      obtain ⟨notRest, distinct⟩ := List.nodup_cons.1 distinct
      obtain ⟨t', read, rep'⟩ := perform_get (c := c) rep now (s.entry k)
      obtain ⟨t'', readRest, rep''⟩ := ih distinct rep'
      have new := entry_ne_of_not_mem s notRest
      rw [afterReads_cons c now s new kept] at rep''
      refine ⟨t'', ?_, rep''⟩
      rw [readEach, Action.perform_bind_ok read, Action.perform_bind_ok readRest,
        Action.perform_pure, List.filterMap_cons]
      have same : ∀ k' ∈ rest, (visibleIn c (Function.update kept (s.entry k)
          ((kept (s.entry k)).bind (Entry.afterRead c now))) now (s.entry k')).map (k', ·) =
          (visibleIn c kept now (s.entry k')).map (k', ·) := by
        intro k' member
        rw [visibleIn, Function.update_of_ne (new k' member), visibleIn]
      rw [List.filterMap_congr same]
      cases visibleIn c kept now (s.entry k) <;> rfl

/-- Delivering what is stored under user keys is reading them in turn. -/
theorem perform_deliverAll (now : UInt64) (s : SlotAddress) {userKeys : List Bytes}
    (distinct : userKeys.Nodup) (rep : Represents t kept) :
    (deliverAll c now Table.store s
        (userKeys.filterMap fun k => (t.get (s.entry k)).map (k, ·))).perform t =
      (readEach c now s userKeys).perform t := by
  induction userKeys generalizing t kept with
  | nil => rfl
  | cons k rest ih =>
      obtain ⟨notRest, distinct⟩ := List.nodup_cons.1 distinct
      rw [List.filterMap_cons, readEach]
      cases stored : t.get (s.entry k) with
      | none =>
          rw [Action.perform_bind_ok (perform_get_of_none stored now), Option.map_none]
          show (deliverAll c now Table.store s _).perform t = _
          rw [ih distinct rep, Action.perform_bind]
          rcases (readEach c now s rest).perform t with ⟨_ | _, _⟩ <;> rfl
      | some bytes =>
          obtain ⟨t', read, rep'⟩ := perform_get (c := c) rep now (s.entry k)
          -- here both sides read the first user key, and go on from the same table
          have delivered := read
          rw [perform_get_of_some stored] at delivered
          have same : ∀ k' ∈ rest, (t.get (s.entry k')).map (k', ·) =
              (t'.get (s.entry k')).map (k', ·) := by
            intro k' member
            rw [rep, rep', Function.update_of_ne (entry_ne_of_not_mem s notRest k' member)]
          simp only [Option.map_some]
          rw [deliverAll, Action.perform_bind_ok delivered, Action.perform_bind_ok read,
            List.filterMap_congr same, Action.perform_bind, ih distinct rep', Action.perform_bind]

/-- Ascending user keys are distinct. -/
theorem nodup_of_ascending {userKeys : List Bytes}
    (asc : userKeys.Pairwise fun k k' => compare k k' = .lt) : userKeys.Nodup :=
  asc.imp fun less same => by simp [same] at less

/-- Values listed with ascending user keys are in ascending order. -/
theorem ascending_filterMap {userKeys : List Bytes}
    (asc : userKeys.Pairwise fun k k' => compare k k' = .lt) (value : Bytes → Option Bytes) :
    (userKeys.filterMap fun k => (value k).map (k, ·)).Pairwise
      fun x y => compare x.1 y.1 = .lt := by
  refine List.Pairwise.filterMap _ (fun k k' less x hx y hy => ?_) asc
  obtain ⟨-, -, rfl⟩ := Option.map_eq_some_iff.1 hx
  obtain ⟨-, -, rfl⟩ := Option.map_eq_some_iff.1 hy
  exact less

/-- If all user keys with a value are there, exactly their values are listed. -/
theorem mem_filterMap_iff {userKeys : List Bytes} {value : Bytes → Option Bytes}
    (all : ∀ k, (value k).isSome → k ∈ userKeys) (k v : Bytes) :
    (k, v) ∈ (userKeys.filterMap fun k => (value k).map (k, ·)) ↔ value k = some v := by
  rw [List.mem_filterMap]
  constructor
  · rintro ⟨k', -, found⟩
    obtain ⟨v', found, same⟩ := Option.map_eq_some_iff.1 found
    cases same
    exact found
  · intro found
    exact ⟨k, all k (by rw [found]; rfl), by rw [found]; rfl⟩

/-- The entries of a slot, from any ascending list of user keys that has all of them. -/
theorem entries_eq_filterMap (t : Table) (s : SlotAddress) {userKeys : List Bytes}
    (asc : userKeys.Pairwise fun k k' => compare k k' = .lt)
    (all : ∀ k, (t.get (s.entry k)).isSome → k ∈ userKeys) :
    t.entries s = userKeys.filterMap fun k => (t.get (s.entry k)).map (k, ·) := by
  refine eq_of_ascending Table.entries_asymm (t.pairwise_entries s) (ascending_filterMap asc _)
    fun (k, value) => ?_
  rw [Table.mem_entries]
  exact (mem_filterMap_iff all k value).symm

/-- Listing the entries of a slot is reading all of its user keys in ascending order. -/
theorem perform_entries_eq_readEach (rep : Represents t kept) (now : UInt64) (s : SlotAddress)
    {userKeys : List Bytes} (asc : userKeys.Pairwise fun k k' => compare k k' = .lt)
    (all : ∀ k, (t.get (s.entry k)).isSome → k ∈ userKeys) :
    ((store c now Table.store).entries s).perform t = (readEach c now s userKeys).perform t := by
  have distinct := nodup_of_ascending asc
  have inner : (Table.store.entries s).perform t = (.ok (t.entries s), t) := rfl
  rw [← perform_deliverAll now s distinct rep, ← entries_eq_filterMap t s asc all]
  exact Action.perform_bind_ok inner _

/-! ## One request -/

variable (c)

/-- What the reply to a request shows of the entries kept: a read or a removal the visible value at
its address, a listing the visible values of its slot in ascending order of the user keys. -/
def Shows (kept : Address → Option Entry) (now : UInt64) : (r : Request) → r.Reply → Prop
  | .get a, found => found = visibleIn c kept now a
  | .remove a, found => found = visibleIn c kept now a
  | .entries s, listed =>
      (listed.Pairwise fun x y => compare x.1 y.1 = .lt) ∧
        ∀ k value, (k, value) ∈ listed ↔ visibleIn c kept now (s.entry k) = some value
  | .put _ _, _ => True
  | .clear _, _ => True

variable {c}

/-- Removing an address delivers what a read of it would. -/
theorem perform_remove (rep : Represents t kept) (now : UInt64) (a : Address) :
    ((store c now Table.store).remove a).perform t =
      (.ok (visibleIn c kept now a), t.remove a) := by
  have inner : (Table.store.remove a).perform t = (.ok (t.get a), t.remove a) := rfl
  simp only [Store.remove, store] at inner ⊢
  rw [Action.perform_bind_ok inner, visibleIn, rep a]
  cases kept a with
  | none => rfl
  | some e =>
      have payload : (Action.lift (unstamp e.stored) : Action Table _).perform (t.remove a) =
          (.ok (e.stamp, e.payload), t.remove a) := by
        rw [Action.perform_lift, Entry.stored, unstamp_stamped]
      exact Action.perform_bind_ok payload _

/-- Listing a slot shows its visible entries, and leaves of them what reads leave. -/
theorem perform_entries (rep : Represents t kept) (now : UInt64) (s : SlotAddress) :
    ∃ listed t', ((store c now Table.store).entries s).perform t = (.ok listed, t') ∧
      Shows c kept now (.entries s) listed ∧
      Represents t' fun a => keep c now (.entries s) a (kept a) := by
  have asc : ((t.entries s).map Prod.fst).Pairwise fun k k' => compare k k' = .lt :=
    List.pairwise_map.2 (t.pairwise_entries s)
  have listedKeys : ∀ k, (t.get (s.entry k)).isSome → k ∈ (t.entries s).map Prod.fst := by
    intro k found
    obtain ⟨value, found⟩ := Option.isSome_iff_exists.1 found
    exact List.mem_map.2 ⟨(k, value), t.mem_entries.2 found, rfl⟩
  have storedKeys : ∀ k, (kept (s.entry k)).isSome → k ∈ (t.entries s).map Prod.fst := by
    intro k found
    exact listedKeys k (by rwa [rep (s.entry k), Option.isSome_map])
  have visibleKeys : ∀ k, (visibleIn c kept now (s.entry k)).isSome →
      k ∈ (t.entries s).map Prod.fst := by
    intro k shown
    exact storedKeys k (Option.isSome_of_isSome_bind shown)
  obtain ⟨t', read, rep'⟩ := perform_readEach (c := c) now s (nodup_of_ascending asc) rep
  rw [← perform_entries_eq_readEach rep now s asc listedKeys] at read
  refine ⟨_, t', read, ⟨ascending_filterMap asc _, mem_filterMap_iff visibleKeys⟩, fun a => ?_⟩
  -- an address was read if it is one of the slot and has a user key that is listed;
  -- a user key that is not listed has no entry to leave
  rw [rep' a]
  obtain ⟨slot, userKey⟩ := a
  simp only [keep, takes, reads, afterReads]
  cases userKey with
  | none => simp [SlotAddress.entry]
  | some k =>
      by_cases inSlot : slot = s
      · subst inSlot
        by_cases listed : k ∈ (t.entries slot).map Prod.fst
        · rw [if_pos ⟨k, listed, rfl⟩]
          simp
        · have vacant : kept ⟨slot, some k⟩ = none :=
            Option.not_isSome_iff_eq_none.1 fun found => listed (storedKeys k found)
          simp [vacant]
      · simp [SlotAddress.entry, inSlot]

/-- No request is refused; what it replies shows the entries kept before it, and it leaves of each
what the rule of its kind says. -/
theorem perform_store (rep : Represents t kept) (now : UInt64) (r : Request) :
    ∃ reply t', ((store c now Table.store).perform r).perform t = (.ok reply, t') ∧
      Shows c kept now r reply ∧ Represents t' fun a => keep c now r a (kept a) := by
  cases r with
  | get a =>
      obtain ⟨t', read, rep'⟩ := perform_get (c := c) rep now a
      refine ⟨_, t', read, rfl, rep'.congr fun b => ?_⟩
      by_cases here : b = a
      · simp [keep, takes, reads, here]
      · simp [keep, takes, reads, here, Ne.symm here]
  | put a payload =>
      refine ⟨(), t.put a (stamped now payload), rfl, trivial,
        (rep.put a ⟨now, payload⟩).congr fun b => ?_⟩
      simp [keep, Function.update_apply, eq_comm (a := a)]
  | remove a =>
      refine ⟨_, t.remove a, perform_remove rep now a, rfl, (rep.remove a).congr fun b => ?_⟩
      simp [keep, takes, reads, Function.update_apply, eq_comm (a := a)]
  | entries s => exact perform_entries rep now s
  | clear s =>
      refine ⟨(), t.clear s, rfl, trivial, (rep.clear s).congr fun b => ?_⟩
      simp [keep, takes, reads]

/-! ## Histories -/

/-- The table keeps the entries that its history tells. -/
theorem represents_tableAfter (c : TtlConfig) (kind : StateKind) (past : History) :
    Represents (tableAfter c kind past) (entryAfter c past) := by
  -- histories grow at their end, where the latest request stands
  induction past using List.reverseRecOn with
  | nil => exact Represents.empty kind
  | append_singleton past x ih =>
      obtain ⟨now, r⟩ := x
      obtain ⟨reply, t', performed, -, rep⟩ := perform_store (c := c) ih now r
      rw [tableAfter_append, performed]
      exact rep.congr fun a => (entryAfter_append c past now r a).symm

section Stamps

variable (c : TtlConfig) (a : Address)

/-- The stamp of an entry that was put at some time, after further requests: the reading of the
clock at the last read that found it live, if reads refresh. -/
def stampAfter (put : UInt64) (later : History) : UInt64 :=
  later.foldl
    (fun stamp x =>
      if reads a x.2 && refreshesOnRead c && !hasExpired c stamp x.1 then x.1 else stamp)
    put

/-- An entry that was put at some time is still there after further requests: none of them took it,
and no read found it expired, unless expired entries may be returned. -/
inductive Survives (put : UInt64) : History → Prop
  | put : Survives put []
  | later {later : History} {now : UInt64} {r : Request} :
      Survives put later → takes a r = false →
      (reads a r = true → hasExpired c (stampAfter c a put later) now = true →
        returnsExpired c = true) →
      Survives put (later ++ [(now, r)])

theorem stampAfter_append (put : UInt64) (later : History) (now : UInt64) (r : Request) :
    stampAfter c a put (later ++ [(now, r)]) =
      if reads a r && refreshesOnRead c && !hasExpired c (stampAfter c a put later) now then now
      else stampAfter c a put later := by
  simp [stampAfter]

variable {c a}

/-- A request that does not take an entry leaves it where it does not read it. -/
theorem keep_of_not_takes {r : Request} (spared : takes a r = false) (now : UInt64)
    (e : Option Entry) :
    keep c now r a e = if reads a r then e.bind (Entry.afterRead c now) else e := by
  cases r <;> simp_all [keep, takes, reads]

/-- Of the requests that take an entry only one that puts leaves another. -/
theorem eq_put_of_keep {r : Request} (taken : takes a r = true) {now : UInt64} {old : Option Entry}
    {e : Entry} (found : keep c now r a old = some e) : r = .put a e.payload ∧ e.stamp = now := by
  cases r with
  | put b payload =>
      obtain rfl : b = a := by simpa [takes] using taken
      simp only [keep, if_true, Option.some.injEq] at found
      subst found
      exact ⟨rfl, rfl⟩
  | get b => cases taken
  | entries s => cases taken
  | remove b => simp [keep, taken] at found
  | clear s => simp [keep, taken] at found

/-- What a read leaves has the payload that was there, and the stamp that the rule says. -/
theorem eq_of_afterRead {now : UInt64} {old e : Entry} (left : old.afterRead c now = some e) :
    e.payload = old.payload ∧ (hasExpired c old.stamp now = true → returnsExpired c = true) ∧
      e.stamp = if refreshesOnRead c && !hasExpired c old.stamp now then now else old.stamp := by
  rw [Entry.afterRead] at left
  cases expired : hasExpired c old.stamp now with
  | true =>
      cases returned : returnsExpired c with
      | false => simp [expired, returned] at left
      | true =>
          obtain rfl : old = e := by simpa [expired, returned] using left
          simp
  | false =>
      cases refreshed : refreshesOnRead c with
      | true =>
          obtain rfl : (⟨now, old.payload⟩ : Entry) = e := by simpa [expired, refreshed] using left
          simp
      | false =>
          obtain rfl : old = e := by simpa [expired, refreshed] using left
          simp

/-- An entry that survives is kept with its payload and its stamp. -/
theorem Survives.entryAfter_eq {put : UInt64} {later : History} (survives : Survives c a put later)
    (before : History) (payload : Bytes) :
    entryAfter c (before ++ (put, .put a payload) :: later) a =
      some ⟨stampAfter c a put later, payload⟩ := by
  -- each later request leaves the entry, with the stamp that the rule says
  induction survives with
  | put => rw [entryAfter_append]; simp [keep, stampAfter]
  | @later later now r survives spared shown ih =>
      rw [show before ++ (put, .put a payload) :: (later ++ [(now, r)]) =
        (before ++ (put, .put a payload) :: later) ++ [(now, r)] by simp, entryAfter_append, ih,
        keep_of_not_takes spared, stampAfter_append]
      cases read : reads a r with
      | false => simp
      | true =>
          cases expired : hasExpired c (stampAfter c a put later) now with
          | true => simp [Entry.afterRead, expired, shown read expired]
          | false =>
              cases refreshed : refreshesOnRead c <;>
                simp [Entry.afterRead, expired, refreshed]

/-- The entry at an address is that of the last put there, if it has survived since. -/
theorem entryAfter_eq_some_iff {past : History} {e : Entry} :
    entryAfter c past a = some e ↔
      ∃ before put later, past = before ++ (put, .put a e.payload) :: later ∧
        Survives c a put later ∧ e.stamp = stampAfter c a put later := by
  constructor
  · intro found
    -- the last request either put the entry or spared it, and then it was there before
    induction past using List.reverseRecOn generalizing e with
    | nil => cases found
    | append_singleton past x ih =>
        obtain ⟨now, r⟩ := x
        rw [entryAfter_append] at found
        cases spared : takes a r with
        | true =>
            obtain ⟨rfl, stamp⟩ := eq_put_of_keep spared found
            exact ⟨past, now, [], rfl, .put, stamp⟩
        | false =>
            rw [keep_of_not_takes spared] at found
            cases read : reads a r with
            | false =>
                obtain ⟨before, put, later, rfl, survives, stamp⟩ :=
                  ih (by simpa [read] using found)
                refine ⟨before, put, later ++ [(now, r)], by simp, .later survives spared ?_, ?_⟩
                · simp [read]
                · simp [stampAfter_append, read, stamp]
            | true =>
                rw [read, if_pos rfl, Option.bind_eq_some_iff] at found
                obtain ⟨old, found, left⟩ := found
                obtain ⟨payload, shown, refreshed⟩ := eq_of_afterRead left
                obtain ⟨before, put, later, rfl, survives, stamp⟩ := ih found
                rw [stamp] at shown refreshed
                refine ⟨before, put, later ++ [(now, r)], by simp [payload],
                  .later survives spared fun _ => shown, ?_⟩
                rw [stampAfter_append, read, Bool.true_and, refreshed]
  · rintro ⟨before, put, later, rfl, survives, stamp⟩
    rw [survives.entryAfter_eq, ← stamp]

end Stamps

/-- An entry has expired once its stamp and the whole milliseconds of its time to live, added up and
capped at the largest word, are not after the present. -/
theorem hasExpired_iff (c : TtlConfig) (stamp now : UInt64) :
    hasExpired c stamp now = true ↔
      min (stamp.toNat + (c.ttl.seconds.toNat * 1000 + c.ttl.nanoseconds / 10 ^ 6)) (2 ^ 64 - 1) ≤
        now.toNat := by
  rw [hasExpired, decide_eq_true_iff, Span.millis, Span.cap]
  omega

/-- Behind expiry nothing is refused, whatever the requests and the readings of the clock were. A
reply shows the entries kept at that time; the entry kept at an address is that of the last put
there, if it has survived since, with the stamp that later reads have left it; the table holds
exactly these entries, each behind its stamp; and listing a slot is reading all of its user keys
in ascending order. -/
theorem expiry_follows_history (c : TtlConfig) (kind : StateKind) (past : History) (now : UInt64) :
    (∀ r, ∃ reply, ((store c now Table.store).perform r).perform (tableAfter c kind past) =
        (.ok reply, tableAfter c kind (past ++ [(now, r)])) ∧
      Shows c (entryAfter c past) now r reply) ∧
    (∀ a e, entryAfter c past a = some e ↔
      ∃ before put later, past = before ++ (put, .put a e.payload) :: later ∧
        Survives c a put later ∧ e.stamp = stampAfter c a put later) ∧
    (∀ stamp, hasExpired c stamp now = true ↔
      min (stamp.toNat + (c.ttl.seconds.toNat * 1000 + c.ttl.nanoseconds / 10 ^ 6)) (2 ^ 64 - 1) ≤
        now.toNat) ∧
    (∀ a, (tableAfter c kind past).get a = (entryAfter c past a).map Entry.stored) ∧
    (∀ s userKeys, (userKeys.Pairwise fun k k' => compare k k' = .lt) →
      (∀ k, ((tableAfter c kind past).get (s.entry k)).isSome → k ∈ userKeys) →
      ((store c now Table.store).entries s).perform (tableAfter c kind past) =
        (readEach c now s userKeys).perform (tableAfter c kind past)) := by
  have rep := represents_tableAfter c kind past
  refine ⟨fun r => ?_, fun a e => entryAfter_eq_some_iff, fun stamp => hasExpired_iff c stamp now,
    rep, fun s userKeys asc all => perform_entries_eq_readEach rep now s asc all⟩
  obtain ⟨reply, t', performed, shows, -⟩ := perform_store (c := c) rep now r
  refine ⟨reply, ?_, shows⟩
  rw [tableAfter_append, performed]

end KeyedState.Ttl
