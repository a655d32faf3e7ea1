import KeyedState.Proofs.Backend.Locality

/-!
# Values under another setting of expiry

Whether the bytes of a value stand behind a stamp is not stored with them; the setting of the state
that reads them decides it. A state of the same name with the other setting takes them for something
else: without expiry for a value that begins with the stamp, with expiry for a stamp and the rest of
the value (`Ttl.Misreads`). The value comes out different wherever the serializer does not tell.

Reading with any setting changes at most the first eight bytes, to the time of the look, or removes
all of them (`Ttl.Remains`). The operations that do not go to the slot change nothing there, and
neither do disposing of backends, sharing the storage and carrying the key group over
(`Backend.Later`).

Main statement: `switched_expiry_misreads`.
-/

namespace KeyedState

/-! ## Stored bytes behind a stamp -/

namespace Ttl

variable {c : TtlConfig} {now : UInt64} {bytes payload : Bytes} {stored : Option Bytes}

/-- What is read as a stamp and a payload is stored as these. -/
theorem eq_stamped_of_unstamp {stamp : UInt64} (read : unstamp bytes = .ok (stamp, payload)) :
    bytes = stamped stamp payload := by
  rw [unstamp] at read
  cases split : splitExactly 8 bytes with
  | none =>
      rw [split] at read
      cases read
  | some parts =>
      obtain ⟨front, rest⟩ := parts
      rw [split] at read
      cases read
      obtain ⟨rfl, width⟩ := splitExactly_eq_some split
      have bound : ofBigEndian front < 2 ^ 64 := by
        have digits := ofLittleEndian_lt front.reverse
        rw [List.length_reverse, width] at digits
        exact digits
      have back := littleEndian_ofLittleEndian front.reverse
      rw [List.length_reverse, width] at back
      rw [stamped, UInt64.toNat_ofNat_of_lt' bound, bigEndian, ofBigEndian, back,
        List.reverse_reverse]

/-- Bytes that are too few for a stamp are refused. -/
theorem unstamp_of_short (short : bytes.length < 8) :
    unstamp bytes = .error (.serialization (.missingTimestamp bytes.length)) := by
  have split : splitExactly 8 bytes = none := by
    rw [splitExactly, List.take_of_length_le (Nat.le_of_lt short)]
    exact if_neg (Nat.ne_of_lt short)
  rw [unstamp, split]

/-- The first eight bytes are taken for a stamp. -/
theorem unstamp_of_long (long : 8 ≤ bytes.length) :
    unstamp bytes = .ok (UInt64.ofNat (ofBigEndian (bytes.take 8)), bytes.drop 8) := by
  have split : splitExactly 8 bytes = some (bytes.take 8, bytes.drop 8) := by
    rw [splitExactly]
    exact if_pos (List.length_take_of_le long)
  rw [unstamp, split]

theorem length_stamped (stamp : UInt64) (payload : Bytes) :
    (stamped stamp payload).length = 8 + payload.length := by
  rw [stamped, List.length_append, length_bigEndian]

theorem drop_stamped (stamp : UInt64) (payload : Bytes) :
    (stamped stamp payload).drop 8 = payload := by
  rw [stamped, List.drop_left' (length_bigEndian 8 _)]

/-- What is stored of bytes that were written, if anything is: the bytes as they are, or what was
behind their stamp, behind the time of a look. -/
inductive Remains (written : Bytes) (looks : List UInt64) : Bytes → Prop
  | written : Remains written looks written
  | refreshed {stamp time : UInt64} {rest : Bytes} (taken : written = stamped stamp rest)
      (look : time ∈ looks) : Remains written looks (stamped time rest)

namespace Remains

variable {written : Bytes} {looks : List UInt64}

/-- One more look leaves some stamp before what is behind the first one. -/
theorem left (remains : Remains written looks bytes) {after : Bytes}
    (left : c.left now (some bytes) = some after) : Remains written (looks ++ [now]) after := by
  -- an entry that is not removed keeps its payload, behind the old stamp or a new one
  have kept : Remains written (looks ++ [now]) bytes := by
    cases remains with
    | written => exact .written
    | refreshed taken look => exact .refreshed taken (List.mem_append_left [now] look)
  rw [TtlConfig.left] at left
  split at left
  · rw [Option.bind_some, TtlConfig.leftBehind] at left
    cases read : unstamp bytes with
    | error e =>
        rw [read] at left
        cases left
        exact kept
    | ok entry =>
        obtain ⟨stamp, rest⟩ := entry
        rw [read] at left
        dsimp only at left
        split at left
        · split at left
          · cases left
            exact kept
          · cases left
        · cases left
          split
          · have same : bytes = stamped stamp rest := eq_stamped_of_unstamp read
            have now_looked : now ∈ looks ++ [now] := List.mem_append_right looks List.mem_cons_self
            cases remains with
            | written => exact .refreshed same now_looked
            | @refreshed old time rest' taken look =>
                obtain rfl : rest' = rest := by
                  rw [← drop_stamped time rest', same, drop_stamped]
                exact .refreshed taken now_looked
          · exact kept
  · cases left
    exact kept

/-- Where there is room for a stamp, there is some stamp before what was behind the first one. -/
theorem eq_stamped (remains : Remains written looks bytes) (long : 8 ≤ written.length) :
    ∃ stamp, bytes = stamped stamp (written.drop 8) := by
  cases remains with
  | written => exact ⟨_, eq_stamped_of_unstamp (unstamp_of_long long)⟩
  | refreshed taken look =>
      rw [taken, drop_stamped]
      exact ⟨_, rfl⟩

/-- Where there is none, the bytes stay as they were written. -/
theorem eq_of_short (remains : Remains written looks bytes) (short : written.length < 8) :
    bytes = written := by
  cases remains with
  | written => rfl
  | refreshed taken look =>
      rw [taken, length_stamped] at short
      exact absurd short (by omega)

end Remains

/-- The answers to a look at what is stored of a value, which was written as a payload with the
other setting than the one that is looked with. Without expiry it is what the stored bytes read as,
which are the payload behind a stamp. With expiry the first eight bytes of the payload, or what was
put in their place, are taken for a stamp: it has expired, or the answer is what the payload reads as
without them; and where the payload has fewer bytes, they are missing. Nothing is found where nothing
is stored any more. -/
inductive Misreads {V : Type} (serializer : Serializer V) (c : TtlConfig) (now : UInt64)
    (payload : Bytes) : Option Bytes → Except StateError (Option V) → Prop
  | gone : Misreads serializer c now payload none (.ok none)
  | stamped (off : c.isEnabled = false) (stamp : UInt64) :
      Misreads serializer c now payload (some (stamped stamp payload))
        ((serializer.deserialize (stamped stamp payload)).map some)
  | short (on : c.isEnabled = true) (short : payload.length < 8) :
      Misreads serializer c now payload (some payload)
        (.error (.serialization (.missingTimestamp payload.length)))
  | expired (on : c.isEnabled = true) (long : 8 ≤ payload.length) (stamp : UInt64)
      (expired : hasExpired c stamp now = true) (hidden : c.visibility = .neverReturnExpired) :
      Misreads serializer c now payload (some (stamped stamp (payload.drop 8))) (.ok none)
  | headless (on : c.isEnabled = true) (long : 8 ≤ payload.length) (stamp : UInt64)
      (shown : hasExpired c stamp now = true → c.visibility = .returnExpired) :
      Misreads serializer c now payload (some (stamped stamp (payload.drop 8)))
        ((serializer.deserialize (payload.drop 8)).map some)

/-- An entry that has expired is delivered if it may be shown. -/
theorem delivered_stamped (c : TtlConfig) (now stamp : UInt64) (payload : Bytes) :
    (hasExpired c stamp now = true ∧ c.visibility = .neverReturnExpired ∧
        c.delivered now (stamped stamp payload) = .ok none) ∨
      (hasExpired c stamp now = true → c.visibility = .returnExpired) ∧
        c.delivered now (stamped stamp payload) = .ok (some payload) := by
  rw [TtlConfig.delivered, unstamp_stamped]
  dsimp only
  cases expired : hasExpired c stamp now with
  | false => exact .inr ⟨fun yes => absurd yes Bool.false_ne_true, rfl⟩
  | true =>
      cases returned : returnsExpired c with
      | true => exact .inr ⟨fun _ => (returnsExpired_iff c).1 returned, rfl⟩
      | false => exact .inl ⟨rfl, (returnsExpired_eq_false_iff c).1 returned, rfl⟩

/-- What was written with one setting is misread with the other one. -/
theorem misreads_of_remains {V : Type} {serializer : Serializer V} {c' : TtlConfig}
    {written : UInt64} {looks : List UInt64}
    (remains : ∀ bytes, stored = some bytes → Remains (c.written written payload) looks bytes)
    (switched : c'.isEnabled = !c.isEnabled) (now : UInt64) :
    Misreads serializer c' now payload stored
      (c'.reading now stored >>= decodeFound serializer) := by
  rw [TtlConfig.reading]
  cases stored with
  | none =>
      split
      · exact .gone
      · exact .gone
  | some bytes =>
      have left := remains bytes rfl
      rw [TtlConfig.written] at left
      cases setting : c.isEnabled with
      | true =>
          -- without expiry the bytes are read as they are, and they begin with a stamp
          have off : c'.isEnabled = false := by rw [switched, setting]; rfl
          rw [if_pos setting] at left
          obtain ⟨stamp, rfl⟩ := left.eq_stamped (by rw [length_stamped]; exact Nat.le_add_right 8 _)
          rw [drop_stamped, if_neg (by rw [off]; exact Bool.false_ne_true)]
          exact .stamped off stamp
      | false =>
          -- with expiry what stands behind the first eight bytes is read
          have on : c'.isEnabled = true := by rw [switched, setting]; rfl
          rw [if_neg (by rw [setting]; exact Bool.false_ne_true)] at left
          rw [if_pos on, Option.elim_some]
          rcases Nat.lt_or_ge payload.length 8 with short | long
          · rw [left.eq_of_short short, TtlConfig.delivered, unstamp_of_short short]
            exact .short on short
          · obtain ⟨stamp, rfl⟩ := left.eq_stamped long
            rcases delivered_stamped c' now stamp (payload.drop 8) with
              ⟨expired, hidden, delivered⟩ | ⟨shown, delivered⟩
            · rw [delivered]
              exact .expired on long stamp expired hidden
            · rw [delivered]
              exact .headless on long stamp shown

end Ttl

variable {keys : Schema}

namespace Backend

/-! ## Later backends -/

/-- A backend comes later than another one on what that one stores in a slot under a name: the
value there was only looked at, by states of any setting, at the given times. Other operations did
not go to the slot; backends were disposed of, shared the storage, and restored the key group of the
slot from what one of them wrote, in any order of its tables and slots, or other key groups from
anything. -/
inductive Later (name : String) (a : SlotAddress) (b : Backend keys) :
    List UInt64 → Backend keys → Prop
  | here : Later name a b [] b
  | step {looks : List UInt64} {b' : Backend keys} (earlier : Later name a b looks b')
      {step : Step keys} (away : ¬ b'.Touches name a step) :
      Later name a b looks (step.perform.perform b').2
  | looked {looks : List UInt64} {b' : Backend keys} (earlier : Later name a b looks b')
      {id : StateId} {s : NamedState} (reaches : b'.Reaches id s a) (named : s.name = name)
      {v : Schema} {serializer : Serializer v.Val} (typed : s.spec = .value v serializer) :
      Later name a b (looks ++ [b'.now]) ((call id (.value v) .get).perform b').2
  | disposed {looks : List UInt64} {b' : Backend keys} (earlier : Later name a b looks b') :
      Later name a b looks b'.dispose
  | shared {looks : List UInt64} {b' other : Backend keys} (earlier : Later name a b looks b')
      (regular : other.Regular) (same : other.storage = b'.storage) : Later name a b looks other
  | restored {looks : List UInt64} {b' other after : Backend keys}
      (earlier : Later name a b looks b') {h : HeapStorage} (held : b'.storage = .heap h)
      (fits : h.FitsMemory) {written : KeyGroupSnapshot}
      (order : (h.snapshot a.group).Reorders written) (regular : other.Regular)
      {stream rest rest' : Bytes} (unpacked : (other.compression.decode stream).bytes =
        KeyGroupSnapshot.codec.encode written ++ rest)
      (read : (readKeyGroup a.group stream).perform other = (.ok rest', after)) :
      Later name a b looks after
  | aside {looks : List UInt64} {b' : Backend keys} (earlier : Later name a b looks b')
      {g : KeyGroup} (other : g ≠ a.group) (stream : Bytes) :
      Later name a b looks ((readKeyGroup g stream).perform b').2

variable {b b' : Backend keys} {name : String} {a : SlotAddress}

/-- A key group is restored, or nothing happens. -/
theorem perform_readKeyGroup_cases {h : HeapStorage} (held : b.storage = .heap h) (g : KeyGroup)
    (stream : Bytes) :
    (∃ e, (readKeyGroup g stream).perform b = (.error e, b)) ∨
      ∃ rest s, KeyGroupSnapshot.codec.decode (b.compression.decode stream).bytes =
          some (s, rest) ∧ s.group = g ∧
        (readKeyGroup g stream).perform b = (.ok rest, { b with storage := .heap (h.restore s) }) := by
  rcases performed : (readKeyGroup g stream).perform b with ⟨e | rest, after⟩
  · obtain rfl : after = b := readKeyGroup_allOrNothing g stream b e after performed
    exact .inl ⟨e, rfl⟩
  · obtain ⟨h', read, rfl⟩ := exists_of_readKeyGroup held performed
    obtain ⟨s, decoded, here, -, rfl⟩ := HeapStorage.exists_restore_of_read read
    exact .inr ⟨rest, s, decoded, here, rfl⟩

namespace Regular

theorem dispose (regular : b.Regular) : b.dispose.Regular :=
  ⟨regular.coherent, regular.storage, regular.shared, regular.room⟩

/-- Restoring a key group keeps a backend regular. -/
theorem readKeyGroup (regular : b.Regular) (g : KeyGroup) (stream : Bytes) :
    ((Backend.readKeyGroup g stream).perform b).2.Regular := by
  obtain ⟨h, held, pruned⟩ := regular.storage
  rcases perform_readKeyGroup_cases held g stream with ⟨e, refused⟩ | ⟨rest, s, -, -, restored⟩
  · rw [refused]
    exact regular
  · rw [restored]
    exact regular.onHeap (pruned.restore s)

/-- Restoring a key group leaves the others as they are. -/
theorem stored_readKeyGroup (regular : b.Regular) {g : KeyGroup} (other : g ≠ a.group)
    (stream : Bytes) (name : String) :
    ((Backend.readKeyGroup g stream).perform b).2.stored name a = b.stored name a := by
  obtain ⟨h, held, -⟩ := regular.storage
  rcases perform_readKeyGroup_cases held g stream with ⟨e, refused⟩ | ⟨rest, s, -, rfl, restored⟩
  · rw [refused]
  · rw [restored, stored, held_eq rfl, HeapStorage.contents_restore, if_neg (Ne.symm other), stored,
      held_eq held]

/-- A key group that was written, in any order of its tables and slots, is restored as it was. -/
theorem held_readKeyGroup (regular : b.Regular) {source : HeapStorage}
    (pruned : source.Pruned) (fits : source.FitsMemory) {g : KeyGroup} {written : KeyGroupSnapshot}
    (order : (source.snapshot g).Reorders written) {stream rest rest' : Bytes}
    (unpacked : (b.compression.decode stream).bytes =
      KeyGroupSnapshot.codec.encode written ++ rest)
    (read : (Backend.readKeyGroup g stream).perform b = (.ok rest', b')) (name : String) :
    b'.held name g = source.contents name g := by
  obtain ⟨h, held, -⟩ := regular.storage
  rcases perform_readKeyGroup_cases held g stream with
    ⟨e, refused⟩ | ⟨rest₁, s, decoded, -, restored⟩
  · rw [refused] at read
    cases read
  · -- what is decoded is what was written
    rw [unpacked, KeyGroupSnapshot.codec.decode_encode _ rest (order.fits (fits.fits g))] at decoded
    cases decoded
    rw [restored] at read
    cases read
    rw [held_eq rfl]
    exact (HeapStorage.carried_restore pruned order).listed name g List.mem_cons_self

/-- A look at a value. -/
theorem reads_value (regular : b.Regular) {id : StateId} {s : NamedState}
    (reaches : b.Reaches id s a) {v : Schema} {serializer : Serializer v.Val}
    (typed : s.spec = .value v serializer) :
    Meets ((Backend.call id (.value v) .get).perform b).1
        (s.ttl.reading b.now (b.stored s.name a) >>= decodeFound serializer) (¬ b.Trackable) ∧
      ((Backend.call id (.value v) .get).perform b).2.stored s.name a =
        s.ttl.left b.now (b.stored s.name a) :=
  regular.reads reaches typed (StateSpec.reads_value serializer)

/-- A value is written in the form of the setting. -/
theorem writes_value (regular : b.Regular) {id : StateId} {s : NamedState}
    (reaches : b.Reaches id s a) {v : Schema} {serializer : Serializer v.Val}
    (typed : s.spec = .value v serializer) {x : v.Val}
    (wrote : (Backend.call id (.value v) (.set x)).perform b = (.ok (), b')) :
    ∃ payload, serializer.serialize x = .ok payload ∧
      b'.stored s.name a = some (s.ttl.written b.now payload) := by
  rcases worked : ((StateSpec.value v serializer).call (s.workspaceStore (b.conditions s)) s.scope
    (.set x)).perform ⟨b.context, b.tableOf s, s.tracker⟩ with ⟨outcome, w⟩
  obtain ⟨answer, after⟩ : ((Backend.call id (.value v) (.set x)).perform b).1 = outcome ∧
      ∀ a, ((Backend.call id (.value v) (.set x)).perform b).2.stored s.name a =
        w.table.get a.whole := regular.perform_call reaches.found typed worked
  rw [wrote] at answer after
  subst answer
  obtain ⟨payload, written, owns⟩ := NamedState.perform_write reaches.addresses
    (regular.owns reaches.found a) (serializer.serialize x) worked
  exact ⟨payload, written, (after a).trans owns.stored⟩

end Regular

namespace Later

variable {looks : List UInt64} {written : Bytes}

theorem regular (later : Later name a b looks b') (start : b.Regular) : b'.Regular := by
  induction later with
  | here => exact start
  | step _ _ ih => exact ih.step _
  | looked _ _ _ _ ih => exact ih.call _ _ _
  | disposed _ ih => exact ih.dispose
  | shared _ regular _ _ => exact regular
  | restored _ _ _ _ regular _ read _ =>
      obtain rfl := congrArg Prod.snd read
      exact regular.readKeyGroup a.group _
  | aside _ _ stream ih => exact ih.readKeyGroup _ stream

/-- What was written remains, behind the time of a look, or nothing is stored any more. -/
theorem remains (later : Later name a b looks b') (start : b.Regular)
    (stored : b.stored name a = some written) :
    ∀ bytes, b'.stored name a = some bytes → Ttl.Remains written looks bytes := by
  induction later with
  | here =>
      intro bytes same
      cases same.symm.trans stored
      exact .written
  | step earlier away ih =>
      rw [(earlier.regular start).stored_step away]
      exact ih
  | @looked looks b' earlier id s reaches named v serializer typed ih =>
      subst named
      rw [((earlier.regular start).reads_value reaches typed).2]
      intro after left
      cases before : b'.stored s.name a with
      | none =>
          rw [before, TtlConfig.left_none] at left
          cases left
      | some bytes =>
          rw [before] at left
          exact (ih bytes before).left left
  | disposed _ ih => exact ih
  | shared _ _ same ih =>
      rw [stored_congr same]
      exact ih
  | restored earlier held fits order regular unpacked read ih =>
      obtain ⟨h, held', pruned⟩ := (earlier.regular start).storage
      cases held.symm.trans held'
      -- the group holds what the other backend stored when it was written
      rw [Backend.stored, regular.held_readKeyGroup pruned fits order unpacked read, ← held_eq held]
      exact ih
  | aside earlier other stream ih =>
      rw [(earlier.regular start).stored_readKeyGroup other]
      exact ih

end Later

end Backend

variable {b b₁ b₂ : Backend keys} {a : SlotAddress}

/-- **What another setting of expiry makes of a value.** A value was written, and after that at most
looked at, by states of any setting. What is stored of it then, if anything is, are the written
bytes, or what stands behind their first eight bytes, behind the time of one of the looks. A state of
its name with the other setting misreads just these bytes: it finds none, or the value that its
serializer reads from them as its setting takes them, or it is refused. Only a sample that could not
be recorded may be a fault instead. -/
theorem switched_expiry_misreads (regular : b.Regular) {id : StateId} {s : NamedState}
    (reaches : b.Reaches id s a) {v : Schema} {serializer : Serializer v.Val}
    (typed : s.spec = .value v serializer) {x : v.Val}
    (wrote : (Backend.call id (.value v) (.set x)).perform b = (.ok (), b₁))
    {looks : List UInt64} (later : Backend.Later s.name a b₁ looks b₂) {id' : StateId}
    {s' : NamedState} (reaches' : b₂.Reaches id' s' a) (named : s'.name = s.name)
    {serializer' : Serializer v.Val} (typed' : s'.spec = .value v serializer')
    (switched : s'.ttl.isEnabled = !s.ttl.isEnabled) :
    ∃ payload, serializer.serialize x = .ok payload ∧
      (∀ bytes, b₂.stored s.name a = some bytes →
        Ttl.Remains (if s.ttl.isEnabled then Ttl.stamped b.now payload else payload) looks bytes) ∧
      (Ttl.Misreads serializer' s'.ttl b₂.now payload (b₂.stored s.name a)
          ((Backend.call id' (.value v) .get).perform b₂).1 ∨
        ¬ b₂.Trackable ∧
          ((Backend.call id' (.value v) .get).perform b₂).1 = .error .historyTooLarge) := by
  obtain ⟨payload, written, stored⟩ := regular.writes_value reaches typed wrote
  have start : b₁.Regular := by
    obtain rfl := congrArg Prod.snd wrote
    exact regular.call id (.value v) (.set x)
  have remains := later.remains start stored
  refine ⟨payload, written, remains, ?_⟩
  rcases ((later.regular start).reads_value reaches' typed').1 with read | fault
  · rw [read, named]
    exact .inl (Ttl.misreads_of_remains remains switched b₂.now)
  · exact .inr fault

/-! ### A count -/

/-- Entries live for an hour after they were written. -/
def TtlConfig.hour : TtlConfig := ⟨.ofMillis 3600000, .onWrite, .neverReturnExpired⟩

/-- Opens the count with a setting of expiry. -/
def Step.openCount (ttl : TtlConfig) : Step .string :=
  .getPartitioned ⟨"count", ttl, none, .value .i64 none⟩ ⟨.unit, .binary .unit⟩ ()

/-- The handle on the count with a setting of expiry. -/
def NamedState.count (ttl : TtlConfig) : NamedState where
  name := "count"
  spec := .value .i64 (.binary .i64)
  namespaces := ⟨.unit, .binary .unit⟩
  ns := some []
  ttl := ttl
  tracker := ⟨none, none, []⟩
  place := .shared

namespace Backend

/-- An operator that is about to count, at the first millisecond. -/
def counting (ttl : TtlConfig) : Backend .string :=
  Step.run [.setClock 1, .openCount ttl, .setKey "k"] (.plain 4 ⟨0, 3⟩)

/-- It has counted five, was disposed of, and opened the count again with another setting. -/
def recounting (before after : TtlConfig) : Backend .string :=
  Step.run [.openCount after]
    ((call 0 (.value .i64) (.set (5 : BitVec 64))).perform (.counting before)).2.dispose

/-- The slot of the count. -/
def countSlot : SlotAddress := ⟨1, Schema.string.codec.encode "k", []⟩

theorem reaches_counting (ttl : TtlConfig) : (counting ttl).Reaches 0 (.count ttl) countSlot := by
  have group : KeyGroup.assign (Schema.string.hash "k") 4 = 1 := by decide +kernel
  exact ⟨rfl, congrArg some group, rfl, rfl⟩

theorem regular_counting (ttl : TtlConfig) : (counting ttl).Regular :=
  (((Regular.of_new (isNew_plain (by decide) (by decide))).step _).step _).step _

end Backend

/-- What a value that was written with expiry reads as without it is neither none nor the value
nor an error: the count of five is read from the stamp of its first millisecond. -/
theorem switched_expiry_reads_stamp :
    (Serializer.binary .i64).Faithful Schema.i64.Storable ∧ Schema.i64.Storable (5 : BitVec 64) ∧
      (Backend.counting .hour).Reaches 0 (.count .hour) Backend.countSlot ∧
      ((Backend.call 0 (.value .i64) (.set (5 : BitVec 64))).perform (.counting .hour)).1 = .ok () ∧
      (Backend.recounting .hour .initial).Reaches 1 (.count .initial) Backend.countSlot ∧
      ((Backend.call 1 (.value .i64) .get).perform (.recounting .hour .initial)).1 =
        .ok (some (0x0100000000000000 : BitVec 64)) := by
  have reaches : (Backend.recounting .hour .initial).Reaches 1 (.count .initial) Backend.countSlot :=
    ⟨rfl, by decide +kernel, rfl, rfl⟩
  exact ⟨Serializer.faithful_binary .i64, ⟨trivial, by decide +kernel⟩,
    Backend.reaches_counting .hour, by decide +kernel, reaches, by decide +kernel⟩

/-- Both ways a count of five is misread. With expiry it is taken for a stamp, and nothing stands
behind that; without expiry the stamp of its first millisecond is taken for the count. -/
theorem switched_expiry_misreads_five :
    (∃ payload, (Serializer.binary .i64).serialize (5 : BitVec 64) = .ok payload ∧
      Ttl.Misreads (.binary .i64) .hour 1 payload
        ((Backend.recounting .initial .hour).stored "count" Backend.countSlot)
        ((Backend.call 1 (.value .i64) .get).perform (.recounting .initial .hour)).1) ∧
    ∃ payload, (Serializer.binary .i64).serialize (5 : BitVec 64) = .ok payload ∧
      Ttl.Misreads (.binary .i64) .initial 1 payload
        ((Backend.recounting .hour .initial).stored "count" Backend.countSlot)
        ((Backend.call 1 (.value .i64) .get).perform (.recounting .hour .initial)).1 := by
  have switching (before after : TtlConfig) (switched : after.isEnabled = !before.isEnabled)
      (wrote : (Backend.call 0 (.value .i64) (.set (5 : BitVec 64))).perform (.counting before) =
        (.ok (), ((Backend.call 0 (.value .i64) (.set (5 : BitVec 64))).perform
          (.counting before)).2))
      (reaches : (Backend.recounting before after).Reaches 1 (.count after) Backend.countSlot)
      (present : (Backend.recounting before after).now = 1)
      (unmetered : (Backend.recounting before after).Trackable) :
      ∃ payload, (Serializer.binary .i64).serialize (5 : BitVec 64) = .ok payload ∧
        Ttl.Misreads (.binary .i64) after 1 payload
          ((Backend.recounting before after).stored "count" Backend.countSlot)
          ((Backend.call 1 (.value .i64) .get).perform (.recounting before after)).1 := by
    have opening : ¬ Backend.Touches ((Backend.call 0 (.value .i64) (.set (5 : BitVec 64))).perform
        (.counting before)).2.dispose "count" Backend.countSlot (.openCount after) := nofun
    obtain ⟨payload, written, -, misread⟩ := switched_expiry_misreads
      (Backend.regular_counting before) (Backend.reaches_counting before) rfl wrote
      (.step (.disposed .here) opening) reaches rfl rfl switched
    refine ⟨payload, written, ?_⟩
    rw [← present]
    exact misread.resolve_right fun fault => fault.1 unmetered
  exact ⟨switching .initial .hour rfl rfl ⟨rfl, by decide +kernel, rfl, rfl⟩ rfl nofun,
    switching .hour .initial rfl rfl ⟨rfl, by decide +kernel, rfl, rfl⟩ rfl nofun⟩

end KeyedState
