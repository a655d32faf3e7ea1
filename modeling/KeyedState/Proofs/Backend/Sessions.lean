import KeyedState.Proofs.Backend.Locality
import KeyedState.Proofs.State.Gathering
import Mathlib.Data.List.Flatten
import Mathlib.Order.Bounds.Basic

/-!
# Sessions of lists and aggregates

Under expiry that only writing refreshes, each addition to a list or an aggregate takes up what was
gathered before it if that has not expired by then, and starts anew if it has. What a look finds is
the current session: the additions since the last gap that was as long as entries live, and nothing
if the time since the last addition is that long (`Ttl.session_eq`).

The slot keeps the encoded session behind the stamp of the last addition, or nothing once a look
has found that to be expired (`Ttl.Holds`). Looks, additions and all operations that do not go to
the slot keep it so (`Backend.Gathers.holds`).

Main statement: `looks_give_the_current_session`.
-/

namespace KeyedState

variable {keys v : Schema}

/-- Only writing refreshes entries, and those that have expired are never returned. -/
structure TtlConfig.IsStrict (c : TtlConfig) : Prop where
  update : c.update = .onWrite
  visibility : c.visibility = .neverReturnExpired

theorem TtlConfig.IsStrict.isEnabled {c : TtlConfig} (strict : c.IsStrict) :
    c.isEnabled = true := by
  rw [TtlConfig.isEnabled, strict.update]
  rfl

namespace Ttl

variable {V : Type} (c : TtlConfig)

/-! ## Additions in time -/

/-- What is left at some time of what was gathered up to an earlier one. -/
def remaining (now : UInt64) : Option (UInt64 × List V) → List V
  | none => []
  | some (last, values) => if hasExpired c last now then [] else values

/-- The time of the last of some additions, and what is gathered after it. -/
def session (log : List (UInt64 × List V)) : Option (UInt64 × List V) :=
  log.foldl (fun gathered x => some (x.1, remaining c x.1 gathered ++ x.2)) none

/-- From a place in the log on, no addition has expired by the time of the next one. -/
def Unbroken (log : List (UInt64 × List V)) (first : Nat) : Prop :=
  ∀ i x y, first ≤ i → log[i]? = some x → log[i + 1]? = some y →
    y.1.toNat < min Span.cap (x.1.toNat + c.ttl.millis)

theorem session_append (log : List (UInt64 × List V)) (x : UInt64 × List V) :
    session c (log ++ [x]) = some (x.1, remaining c x.1 (session c log) ++ x.2) := by
  simp [session]

variable {c}

/-- An entry has not expired as long as its end, capped, is after the present. -/
theorem hasExpired_eq_false_iff {stamp now : UInt64} :
    hasExpired c stamp now = false ↔ now.toNat < min Span.cap (stamp.toNat + c.ttl.millis) := by
  rw [hasExpired, decide_eq_false_iff_not, Nat.not_le]

/-- From the last addition on nothing is broken. -/
theorem unbroken_of_last (log : List (UInt64 × List V)) (x : UInt64 × List V) :
    Unbroken c (log ++ [x]) log.length := by
  intro i y z inside _ next
  have bound := (List.getElem?_eq_some_iff.1 next).1
  rw [List.length_append, List.length_singleton] at bound
  omega

/-- One more addition continues what is unbroken, if the last one has not expired by then. -/
theorem unbroken_append {log : List (UInt64 × List V)} {last x : UInt64 × List V}
    (ended : log.getLast? = some last) {first : Nat} (inside : first < log.length) :
    Unbroken c (log ++ [x]) first ↔ Unbroken c log first ∧ hasExpired c last.1 x.1 = false := by
  have old : ∀ {i : Nat} {y}, log[i]? = some y → (log ++ [x])[i]? = some y := fun found =>
    List.getElem?_append_left (List.getElem?_eq_some_iff.1 found).1 ▸ found
  have last_old : log[log.length - 1]? = some last := by
    rw [← List.getLast?_eq_getElem?, ended]
  have new : (log ++ [x])[log.length]? = some x := List.getElem?_concat_length
  rw [hasExpired_eq_false_iff]
  constructor
  · intro unbroken
    refine ⟨fun i y z behind here next => unbroken i y z behind (old here) (old next), ?_⟩
    refine unbroken (log.length - 1) last x (by omega) (old last_old) ?_
    rw [Nat.sub_add_cancel (by omega)]
    exact new
  · rintro ⟨unbroken, short⟩ i y z behind here next
    rcases Nat.lt_or_ge (i + 1) log.length with before | last_gap
    · rw [List.getElem?_append_left (by omega)] at here
      rw [List.getElem?_append_left before] at next
      exact unbroken i y z behind here next
    · -- this is the gap in front of the new one
      have bound := (List.getElem?_eq_some_iff.1 next).1
      rw [List.length_append, List.length_singleton] at bound
      have place : i + 1 = log.length := by omega
      rw [place, new] at next
      rw [old (show log[i]? = some last by rw [← last_old, ← place, Nat.add_sub_cancel])] at here
      cases here
      cases next
      exact short

/-- A session is what was added since the first place from which nothing had expired by the time of
the next addition. -/
theorem session_eq {log : List (UInt64 × List V)} {last : UInt64 × List V}
    (ended : log.getLast? = some last) :
    ∃ first, IsLeast {i | i < log.length ∧ Unbroken c log i} first ∧
      session c log = some (last.1, (log.drop first).flatMap Prod.snd) := by
  induction log using List.reverseRecOn generalizing last with
  | nil => cases ended
  | append_singleton log x ih =>
      rw [List.getLast?_concat] at ended
      cases ended
      have length : (log ++ [x]).length = log.length + 1 := List.length_append
      -- the session is at least the last addition
      have here : log.length ∈ {i | i < (log ++ [x]).length ∧ Unbroken c (log ++ [x]) i} :=
        ⟨by omega, unbroken_of_last log x⟩
      rw [session_append]
      cases ended : log.getLast? with
      | none =>
          obtain rfl := List.getLast?_eq_none_iff.1 ended
          exact ⟨0, ⟨here, fun i _ => Nat.zero_le i⟩, by simp [session, remaining]⟩
      | some prev =>
          obtain ⟨first, ⟨⟨inside, unbroken⟩, least⟩, gathered⟩ := ih ended
          rw [gathered, remaining]
          cases expired : hasExpired c prev.1 x.1 with
          | true =>
              -- whatever begins before the new addition is broken in front of it
              refine ⟨log.length, ⟨here, fun i earlier => ?_⟩, by simp⟩
              by_contra before
              have kept := ((unbroken_append ended (Nat.lt_of_not_le before)).1 earlier.2).2
              rw [expired] at kept
              cases kept
          | false =>
              -- the places from which nothing is broken are the same, and the new one
              refine ⟨first, ⟨⟨by omega, (unbroken_append ended inside).2 ⟨unbroken, expired⟩⟩,
                fun i earlier => ?_⟩, ?_⟩
              · rcases Nat.lt_or_ge i log.length with before | behind
                · exact least ⟨before, ((unbroken_append ended before).1 earlier.2).1⟩
                · omega
              · rw [List.drop_append_of_le_length (Nat.le_of_lt inside), List.flatMap_append]
                simp

/-- What is gathered at any time was added, in the same order. -/
theorem remaining_session_sublist (c : TtlConfig) (now : UInt64)
    (log : List (UInt64 × List V)) :
    (remaining c now (session c log)).Sublist (log.flatMap Prod.snd) := by
  cases ended : log.getLast? with
  | none =>
      obtain rfl := List.getLast?_eq_none_iff.1 ended
      exact List.Sublist.refl _
  | some last =>
      obtain ⟨first, -, gathered⟩ := session_eq (c := c) ended
      rw [gathered, remaining]
      split
      · exact List.nil_sublist _
      · exact (List.drop_sublist first log).flatMap Prod.snd

/-! ## The slot of a session -/

/-- The slot keeps what is gathered: encoded behind the stamp of the last addition, or nothing once
it has expired. -/
inductive Holds (c : TtlConfig) (g : Gathering v) (now : UInt64) :
    Option (UInt64 × List v.Val) → Option Bytes → Prop
  | vacant : Holds c g now none none
  | kept {last : UInt64} {values : List v.Val} {bytes : Bytes} (encodes : g.Encodes values bytes) :
      Holds c g now (some (last, values)) (some (stamped last bytes))
  | gone {last : UInt64} {values : List v.Val} (expired : hasExpired c last now = true) :
      Holds c g now (some (last, values)) none

namespace Holds

variable {g : Gathering v} {now : UInt64} {gathered : Option (UInt64 × List v.Val)}
  {stored : Option Bytes}

/-- What has expired stays so. -/
theorem later (holds : Holds c g now gathered stored) {now' : UInt64} (forward : now ≤ now') :
    Holds c g now' gathered stored := by
  cases holds with
  | vacant => exact .vacant
  | kept encodes => exact .kept encodes
  | gone expired =>
      rw [hasExpired, decide_eq_true_iff] at expired
      refine .gone ?_
      rw [hasExpired, decide_eq_true_iff]
      exact Nat.le_trans expired (UInt64.le_iff_toNat_le.1 forward)

/-- A look finds what is left. -/
theorem reading (holds : Holds c g now gathered stored) (strict : c.IsStrict) :
    ∃ found, c.reading now stored = .ok found ∧ g.Finds (remaining c now gathered) found := by
  rw [TtlConfig.reading, if_pos strict.isEnabled]
  cases holds with
  | vacant => exact ⟨none, rfl, rfl⟩
  | gone expired => exact ⟨none, rfl, if_pos expired⟩
  | @kept last values bytes encodes =>
      refine ⟨_, c.delivered_stored now ⟨last, bytes⟩, ?_⟩
      rw [Entry.visible, remaining, (returnsExpired_eq_false_iff c).2 strict.visibility]
      cases hasExpired c last now with
      | true => rfl
      | false => exact encodes

/-- A look removes what has expired, and changes nothing else. -/
theorem looked (holds : Holds c g now gathered stored) (strict : c.IsStrict) :
    Holds c g now gathered (c.left now stored) := by
  rw [TtlConfig.left, if_pos strict.isEnabled]
  cases holds with
  | vacant => exact .vacant
  | gone expired => exact .gone expired
  | @kept last values bytes encodes =>
      have settled : refreshesOnRead c = false := by
        rw [← Bool.not_eq_true, refreshesOnRead_iff, strict.update]
        intro refreshes
        cases refreshes
      show Holds c g now _ (c.leftBehind now (Entry.stored ⟨last, bytes⟩))
      rw [c.leftBehind_stored, Entry.afterRead, (returnsExpired_eq_false_iff c).2 strict.visibility,
        settled]
      cases expired : hasExpired c last now with
      | true => exact .gone expired
      | false => exact .kept encodes

end Holds

end Ttl

namespace Backend

/-! ## Runs -/

/-- The state of a number is a handle on the slot, under the name and with the setting. -/
def LeadsTo (b : Backend keys) (g : Gathering v) (c : TtlConfig) (name : String) (a : SlotAddress)
    (id : StateId) : Prop :=
  ∃ s, b.Reaches id s a ∧ s.name = name ∧ s.spec = g.spec ∧ s.ttl = c

/-- A backend after a run in which the slot was empty at first and values were added in it, at the
times and in the order of the log. In between it was looked at any number of times, other operations
did not go to the slot, and the clock was not set back. -/
inductive Gathers (g : Gathering v) (c : TtlConfig) (name : String) (a : SlotAddress) :
    Backend keys → List (UInt64 × List v.Val) → Prop
  | start {b : Backend keys} (regular : b.Regular) (vacant : b.stored name a = none) :
      Gathers g c name a b []
  | elsewhere {b : Backend keys} {log : List (UInt64 × List v.Val)}
      (before : Gathers g c name a b log) {step : Step keys} (away : ¬ b.Touches name a step)
      (forward : ∀ now, step = .setClock now → b.now ≤ now) :
      Gathers g c name a (step.perform.perform b).2 log
  | looked {b : Backend keys} {log : List (UInt64 × List v.Val)}
      (before : Gathers g c name a b log) {id : StateId} (leads : b.LeadsTo g c name a id) :
      Gathers g c name a ((call id g.spec.type g.look).perform b).2 log
  | added {b b' : Backend keys} {log : List (UInt64 × List v.Val)}
      (before : Gathers g c name a b log) {id : StateId} (leads : b.LeadsTo g c name a id)
      {x : g.spec.type.Call} {values : List v.Val} (adds : g.Adds x values)
      {reply : g.spec.type.Reply x} (done : (call id g.spec.type x).perform b = (.ok reply, b')) :
      Gathers g c name a b' (log ++ [(b.now, values)])

variable {b b' : Backend keys} {g : Gathering v} {c : TtlConfig} {name : String} {a : SlotAddress}
  {id : StateId} {used : Selection}

namespace LeadsTo

/-- A look gives what is left of what was gathered, and the slot still keeps it. -/
theorem look (leads : b.LeadsTo g c name a id) (regular : b.Regular) (strict : c.IsStrict)
    (roundTrips : g.spec.RoundTrips used) {gathered : Option (UInt64 × List v.Val)}
    (holds : Ttl.Holds c g b.now gathered (b.stored name a))
    (fits : Gathering.Fits used (Ttl.remaining c b.now gathered)) :
    Returns ((call id g.spec.type g.look).perform b).1 (g.answer (Ttl.remaining c b.now gathered))
        (¬ b.Trackable) ∧
      Ttl.Holds c g b.now gathered
        (((call id g.spec.type g.look).perform b).2.stored name a) := by
  obtain ⟨s, reaches, rfl, typed, rfl⟩ := leads
  obtain ⟨found, read, finds⟩ := holds.reading strict
  obtain ⟨meets, after⟩ := regular.reads reaches typed g.reads_look
  have decoded : (Except.ok found >>= g.decode) = .ok (g.answer (Ttl.remaining s.ttl b.now gathered)) :=
    g.decode_eq_ok roundTrips fits finds
  rw [read, decoded] at meets
  exact ⟨meets, after ▸ holds.looked strict⟩

/-- An addition that succeeds is gathered, with what is left. -/
theorem add (leads : b.LeadsTo g c name a id) (regular : b.Regular) (strict : c.IsStrict)
    (roundTrips : g.spec.RoundTrips used) {gathered : Option (UInt64 × List v.Val)}
    (holds : Ttl.Holds c g b.now gathered (b.stored name a))
    (fits : Gathering.Fits used (Ttl.remaining c b.now gathered)) {x : g.spec.type.Call}
    {values : List v.Val} (adds : g.Adds x values) {reply : g.spec.type.Reply x}
    (done : (call id g.spec.type x).perform b = (.ok reply, b')) :
    Ttl.Holds c g b.now (some (b.now, Ttl.remaining c b.now gathered ++ values))
      (b'.stored name a) := by
  obtain ⟨s, reaches, rfl, typed, rfl⟩ := leads
  obtain ⟨found, read, finds⟩ := holds.reading strict
  -- the call reads first, which hides what has expired, and then writes
  obtain ⟨f, rewrites, encodes⟩ := Gathering.exists_rewrites roundTrips adds
  obtain ⟨bytes, made, after⟩ := regular.rewrites reaches typed rewrites done
  rw [read] at made
  rw [after, TtlConfig.written, if_pos strict.isEnabled]
  exact .kept (encodes fits finds made)

end LeadsTo

/-- Throughout a run the slot keeps the current session. -/
theorem Gathers.holds (strict : c.IsStrict) (roundTrips : g.spec.RoundTrips used)
    {log : List (UInt64 × List v.Val)} (gathers : b.Gathers g c name a log)
    (fits : Gathering.Fits used (log.flatMap Prod.snd)) :
    b.Regular ∧ Ttl.Holds c g b.now (Ttl.session c log) (b.stored name a) := by
  -- what remains at any time was added before, so it can be read back
  induction gathers with
  | start regular vacant =>
      rw [vacant]
      exact ⟨regular, .vacant⟩
  | @elsewhere b log before step away forward ih =>
      obtain ⟨regular, holds⟩ := ih fits
      rw [regular.stored_step away, regular.now_step]
      refine ⟨regular.step step, ?_⟩
      cases step with
      | setClock now => exact holds.later (forward now rfl)
      | _ => exact holds
  | @looked b log before id leads ih =>
      obtain ⟨regular, holds⟩ := ih fits
      have remain := fits.sublist (Ttl.remaining_session_sublist c b.now log)
      rw [regular.now_call]
      exact ⟨regular.call id _ _, (leads.look regular strict roundTrips holds remain).2⟩
  | @added b b' log before id leads x values adds reply done ih =>
      rw [List.flatMap_append] at fits
      have earlier := fits.sublist (List.sublist_append_left _ _)
      obtain ⟨regular, holds⟩ := ih earlier
      have remain := earlier.sublist (Ttl.remaining_session_sublist c b.now log)
      have kept := leads.add regular strict roundTrips holds remain adds done
      obtain rfl := congrArg Prod.snd done
      rw [regular.now_call, Ttl.session_append]
      exact ⟨regular.call id _ _, kept⟩

end Backend

variable {b : Backend keys} {g : Gathering v} {c : TtlConfig} {name : String} {a : SlotAddress}

/-- Lists and aggregates keep exactly the current session under expiry that only writing refreshes
and that never returns what has expired. A slot is empty at first, and values are added in it at some
times; in between it is looked at any number of times, all other slots are worked on in any way,
and the clock is never set back. Then a look gives what was added since the first place from which
each addition was followed by the next one before its end, or nothing if the last one has reached
its end. Only a sample that could not be recorded may be a fault instead. -/
theorem looks_give_the_current_session (strict : c.IsStrict) {used : Selection}
    (roundTrips : g.spec.RoundTrips used) {log : List (UInt64 × List v.Val)}
    (gathers : b.Gathers g c name a log) (selected : ∀ x ∈ log.flatMap Prod.snd, used v x)
    (few : (log.flatMap Prod.snd).length < 2 ^ 64) {last : UInt64 × List v.Val}
    (ended : log.getLast? = some last) {id : StateId} (leads : b.LeadsTo g c name a id) :
    ∃ first, IsLeast {i | i < log.length ∧ Ttl.Unbroken c log i} first ∧
      Returns ((Backend.call id g.spec.type g.look).perform b).1
        (g.answer (if min Span.cap (last.1.toNat + c.ttl.millis) ≤ b.now.toNat then []
          else (log.drop first).flatMap Prod.snd))
        (¬ b.Trackable) := by
  have fits : Gathering.Fits used (log.flatMap Prod.snd) := ⟨selected, few⟩
  obtain ⟨regular, holds⟩ := gathers.holds strict roundTrips fits
  obtain ⟨first, least, gathered⟩ := Ttl.session_eq (c := c) ended
  have remain := fits.sublist (Ttl.remaining_session_sublist c b.now log)
  have looked := (leads.look regular strict roundTrips holds remain).1
  refine ⟨first, least, ?_⟩
  rw [gathered, Ttl.remaining, Ttl.hasExpired] at looked
  simpa only [decide_eq_true_eq] using looked

/-! ### Clicks -/

/-- Entries live for a second after they were written. -/
def TtlConfig.second : TtlConfig := ⟨.ofMillis 1000, .onWrite, .neverReturnExpired⟩

/-- A list of clicks. -/
def Gathering.clicks : Gathering .i64 := .list (.binary .i64)

/-- A handle on it. -/
def NamedState.clicks : NamedState where
  name := "clicks"
  spec := Gathering.clicks.spec
  namespaces := ⟨.unit, .binary .unit⟩
  ns := some []
  ttl := .second
  tracker := ⟨none, none, []⟩
  place := .shared

namespace Backend

/-- An operator that is about to gather clicks. -/
def clicking : Backend .string :=
  Step.run [.getPartitioned ⟨"clicks", .second, none, .list .i64 none⟩ ⟨.unit, .binary .unit⟩ (),
    .setKey "k"] (.plain 4 ⟨0, 3⟩)

/-- It waits until some time. -/
def waiting (b : Backend .string) (now : UInt64) : Backend .string :=
  Step.run [.setClock now] b

/-- It gathers a click. -/
def clicked (b : Backend .string) (click : BitVec 64) : Backend .string :=
  ((call 0 Gathering.clicks.spec.type (ListCall.add click)).perform b).2

/-- Three clicks, of which the first one has expired when the second one comes. -/
def threeClicks : Backend .string :=
  ((((clicking.clicked 1).waiting 1500).clicked 2).waiting 2000).clicked 3

/-- The times at which they come. -/
def clickLog : List (UInt64 × List (BitVec 64)) := [(0, [1]), (1500, [2]), (2000, [3])]

/-- The slot of the clicks. -/
def clickSlot : SlotAddress := ⟨1, Schema.string.codec.encode "k", []⟩

/-- Its list is the first state. -/
abbrev HasClicks (b : Backend .string) : Prop :=
  b.LeadsTo .clicks .second "clicks" clickSlot 0

variable {b : Backend .string} {log : List (UInt64 × List (BitVec 64))}

theorem Gathers.wait (before : b.Gathers .clicks .second "clicks" clickSlot log) (now : UInt64)
    (forward : b.now ≤ now) : (b.waiting now).Gathers .clicks .second "clicks" clickSlot log :=
  .elsewhere before (fun touches : b.Touches _ _ (.setClock now) => touches) fun now' same => by
    cases same
    exact forward

theorem Gathers.click (before : b.Gathers .clicks .second "clicks" clickSlot log)
    (leads : b.HasClicks) (click : BitVec 64)
    (done : ((call 0 Gathering.clicks.spec.type (ListCall.add click)).perform b).1 = .ok ()) :
    (b.clicked click).Gathers .clicks .second "clicks" clickSlot (log ++ [(b.now, [click])]) :=
  .added before leads (.inl ⟨click, rfl, rfl⟩) (Prod.ext done rfl)

end Backend

/-- A look at the three clicks gives the last two. -/
theorem looks_give_the_current_session_clicks :
    Backend.threeClicks.Gathers .clicks .second "clicks" Backend.clickSlot Backend.clickLog ∧
      ∃ first, IsLeast {i | i < 3 ∧ Ttl.Unbroken .second Backend.clickLog i} first ∧
        ((Backend.call 0 (.list .i64) .get).perform .threeClicks).1 =
          .ok ((Backend.clickLog.drop first).flatMap Prod.snd) ∧
        ((Backend.call 0 (.list .i64) .get).perform .threeClicks).1 =
          .ok ([2, 3] : List (BitVec 64)) := by
  have leads : Backend.threeClicks.HasClicks :=
    ⟨.clicks, ⟨rfl, by decide +kernel, rfl, rfl⟩, rfl, rfl, rfl⟩
  have gathers : Backend.threeClicks.Gathers .clicks .second "clicks" Backend.clickSlot
      Backend.clickLog := by
    have start : Backend.clicking.Gathers .clicks .second "clicks" Backend.clickSlot [] :=
      .start (((Backend.Regular.of_new (Backend.isNew_plain (by decide) (by decide))).step _).step
        _) rfl
    have first := start.click ⟨.clicks, ⟨rfl, by decide +kernel, rfl, rfl⟩, rfl, rfl, rfl⟩ 1 rfl
    have second := (first.wait 1500 (by decide +kernel)).click
      ⟨.clicks, ⟨rfl, by decide +kernel, rfl, rfl⟩, rfl, rfl, rfl⟩ 2 rfl
    exact (second.wait 2000 (by decide +kernel)).click
      ⟨.clicks, ⟨rfl, by decide +kernel, rfl, rfl⟩, rfl, rfl, rfl⟩ 3 rfl
  have roundTrips : Gathering.clicks.spec.RoundTrips fun s => s.Storable :=
    (Serializer.faithful_binary .i64).roundTrips
  have storable : ∀ x : BitVec 64, Schema.i64.Storable x := by
    intro x
    refine ⟨trivial, ?_⟩
    show (littleEndian 8 _).length < _
    rw [length_littleEndian]
    decide
  obtain ⟨first, least, looked⟩ := looks_give_the_current_session ⟨rfl, rfl⟩ roundTrips gathers
    (fun x _ => storable x) (by decide) rfl leads
  rw [if_neg (by decide +kernel)] at looked
  refine ⟨gathers, first, least, ?_, by decide +kernel⟩
  exact looked.resolve_right fun fault => fault.1 fun m metrics => nomatch metrics

end KeyedState
