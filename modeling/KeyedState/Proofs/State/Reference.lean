import KeyedState.Proofs.Table.Requests
import KeyedState.State.Named

/-!
# What a typed state is

Bytes, slots and tables aside, a typed state holds for each key in each namespace an optional
value, a list, a finite map, or the values that were added to an aggregate since it was last
cleared. For each of the four types this module says what a call makes of that content (`after`)
and what it is answered with (`Answers`), and how a slot holds it (`StateSpec.Holds`).

The listings of a map are in ascending order of the serialized keys, which determines them
(`MapCall.Lists.unique`). So each call has one answer (`StateSpec.Answers.unique`).
-/

namespace KeyedState

/-! ## Serializers at work -/

/-- The values that the binary format writes and reads back. -/
def Schema.Storable (s : Schema) (v : s.Val) : Prop :=
  s.codec.fits v ∧ (s.codec.encode v).length < 2 ^ 64

namespace Serializer

variable {V : Type}

/-- The serializer writes the values of `Q`, into bytes whose number is a 64-bit word, and reads
back what it wrote. -/
def Faithful (s : Serializer V) (Q : V → Prop) : Prop :=
  ∀ v, Q v → ∃ bytes, s.serialize v = .ok bytes ∧ s.deserialize bytes = .ok v ∧
    bytes.length < 2 ^ 64

/-- The bytes are what is written for a value of `Q`. -/
def Writes (s : Serializer V) (Q : V → Prop) (v : V) (bytes : Bytes) : Prop :=
  Q v ∧ s.serialize v = .ok bytes

/-- What the serializer writes of the values of `Q`, into bytes whose number is a 64-bit word, it
reads back. -/
def RoundTrips (s : Serializer V) (Q : V → Prop) : Prop :=
  ∀ v bytes, s.Writes Q v bytes → s.deserialize bytes = .ok v ∧ bytes.length < 2 ^ 64

/-- One value is written before another in the order of the bytes. -/
def Precedes (s : Serializer V) (v w : V) : Prop :=
  ∃ x y, s.serialize v = .ok x ∧ s.serialize w = .ok y ∧ compare x y = .lt

/-- No value precedes one that precedes it. -/
theorem Precedes.asymm {s : Serializer V} {v w : V} (h : s.Precedes v w) : ¬ s.Precedes w v := by
  obtain ⟨x, y, hx, hy, less⟩ := h
  rintro ⟨y', x', hy', hx', less'⟩
  cases Except.ok.inj (hx.symm.trans hx')
  cases Except.ok.inj (hy.symm.trans hy')
  exact absurd (Std.OrientedCmp.gt_of_lt less') (by rw [less]; decide)

variable {s : Serializer V} {Q : V → Prop}

/-- Different values are written differently. -/
theorem RoundTrips.inj (roundTrips : s.RoundTrips Q) {v w : V} {bytes : Bytes}
    (hv : s.Writes Q v bytes) (hw : s.Writes Q w bytes) : v = w :=
  Except.ok.inj ((roundTrips v bytes hv).1.symm.trans (roundTrips w bytes hw).1)

/-- What is faithful to values reads them back. -/
theorem Faithful.roundTrips (faithful : s.Faithful Q) : s.RoundTrips Q := by
  intro v bytes h
  obtain ⟨bytes', written, readBack, fits⟩ := faithful v h.1
  cases Except.ok.inj (h.2.symm.trans written)
  exact ⟨readBack, fits⟩

/-- Values of `Q` are written. -/
theorem Faithful.exists_writes (faithful : s.Faithful Q) {v : V} (hv : Q v) :
    ∃ bytes, s.Writes Q v bytes := by
  obtain ⟨bytes, written, -⟩ := faithful v hv
  exact ⟨bytes, hv, written⟩

/-- The binary format writes and reads back the values whose lengths are words. -/
theorem faithful_binary (s : Schema) : (binary s).Faithful s.Storable := by
  intro v storable
  refine ⟨s.codec.encode v, rfl, ?_, storable.2⟩
  show orMalformed (s.codec.read (s.codec.encode v)) = .ok v
  rw [s.codec.read_encode storable.1]
  rfl

end Serializer

/-! ## Contents, calls and answers -/

namespace ValueCall

variable {V : Type}

/-- The value after a call. -/
def after : ValueCall V → Option V → Option V
  | get, x => x
  | set value, _ => some value
  | clear, _ => none

/-- What a call is answered with. -/
def answer : (c : ValueCall V) → Option V → c.Reply
  | get, x => x
  | set _, _ => ()
  | clear, _ => ()

/-- The value that is handed over, if one is, belongs to `Q`. -/
def Within (Q : V → Prop) : ValueCall V → Prop
  | set value => Q value
  | _ => True

end ValueCall

namespace ListCall

variable {V : Type}

/-- The list after a call. -/
def after : ListCall V → List V → List V
  | get, x => x
  | add value, x => x ++ [value]
  | addAll values, x => x ++ values
  | update values, _ => values
  | clear, _ => []

/-- What a call is answered with. -/
def answer : (c : ListCall V) → List V → c.Reply
  | get, x => x
  | add _, _ => ()
  | addAll _, _ => ()
  | update _, _ => ()
  | clear, _ => ()

/-- The elements that are handed over. -/
def elements : ListCall V → List V
  | add value => [value]
  | addAll values => values
  | update values => values
  | _ => []

end ListCall

namespace MapCall

variable {K V : Type}

/-- The map after a call. -/
def after [DecidableEq K] : MapCall K V → (K → Option V) → K → Option V
  | put key value, m => fun k => if k = key then some value else m k
  | remove key, m => fun k => if k = key then none else m k
  | clear, _ => fun _ => none
  | _, m => m

/-- A listing of a map: its entries, each key before those of larger ones. -/
structure Lists (before : K → K → Prop) (m : K → Option V) (listed : List (K × V)) : Prop where
  ascending : listed.Pairwise fun x y => before x.1 y.1
  entries : ∀ k v, (k, v) ∈ listed ↔ m k = some v

/-- What a call is answered with. -/
def Answers (before : K → K → Prop) : (c : MapCall K V) → (K → Option V) → c.Reply → Prop
  | get key, m, reply => reply = m key
  | put _ _, _, _ => True
  | remove key, m, reply => reply = m key
  | contains key, m, reply => reply = (m key).isSome
  | keys, m, reply => ∃ listed, Lists before m listed ∧ reply = listed.map Prod.fst
  | values, m, reply => ∃ listed, Lists before m listed ∧ reply = listed.map Prod.snd
  | entries, m, reply => Lists before m reply
  | clear, _, _ => True
  | isEmpty, m, reply => reply = true ↔ ∀ key, m key = none

/-- The user key and the value that are handed over, if they are, belong to `P` and to `Q`. -/
def Within (P : K → Prop) (Q : V → Prop) : MapCall K V → Prop
  | get key => P key
  | put key value => P key ∧ Q value
  | remove key => P key
  | contains key => P key
  | _ => True

/-- A map has one listing. -/
theorem Lists.unique {before : K → K → Prop} (asymm : ∀ a b, before a b → ¬ before b a)
    {m : K → Option V} {l l' : List (K × V)} (h : Lists before m l) (h' : Lists before m l') :
    l = l' :=
  eq_of_ascending (fun x y => asymm x.1 y.1) h.ascending h'.ascending fun (k, v) =>
    (h.entries k v).trans (h'.entries k v).symm

/-- A map without keys is listed as nothing. -/
theorem Lists.eq_nil_iff {before : K → K → Prop} {m : K → Option V} {listed : List (K × V)}
    (h : Lists before m listed) : listed = [] ↔ ∀ key, m key = none := by
  simp only [List.eq_nil_iff_forall_not_mem, Prod.forall, h.entries,
    Option.eq_none_iff_forall_ne_some]

end MapCall

namespace ReducingCall

variable {V : Type}

/-- The values added since the last clear, after a call. -/
def after : ReducingCall V → List V → List V
  | get, added => added
  | add value, added => added ++ [value]
  | clear, _ => []

/-- The aggregate of values: the first one, with the others taken in from left to right. -/
def aggregate (reduce : V → V → V) : List V → Option V
  | [] => none
  | value :: rest => some (rest.foldl reduce value)

/-- What a call is answered with. -/
def answer (reduce : V → V → V) : (c : ReducingCall V) → List V → c.Reply
  | get, added => aggregate reduce added
  | add _, _ => ()
  | clear, _ => ()

/-- The value that is handed over, if one is, belongs to `Q`. -/
def Within (Q : V → Prop) : ReducingCall V → Prop
  | add value => Q value
  | _ => True

/-- One more value is taken into the aggregate of the others. -/
theorem aggregate_append (reduce : V → V → V) (added : List V) (value : V) :
    aggregate reduce (added ++ [value]) = some (match aggregate reduce added with
      | none => value
      | some current => reduce current value) := by
  cases added with
  | nil => rfl
  | cons first rest => simp [aggregate]

end ReducingCall

namespace StateType

/-- What a state holds for one key in one namespace; of an aggregate, the values that were added
since it was last cleared. -/
abbrev Content : StateType → Type
  | value v => Option v.Val
  | list v => List v.Val
  | map k v => k.Val → Option v.Val
  | reducing v => List v.Val

/-- Nothing is held. -/
def nothing : (t : StateType) → t.Content
  | value _ => (none : Option _)
  | list _ => ([] : List _)
  | map _ _ => fun _ => none
  | reducing _ => ([] : List _)

open Classical in
/-- The content after a call. -/
noncomputable def after : (t : StateType) → t.Call → t.Content → t.Content
  | value _, c, x => ValueCall.after c x
  | list _, c, x => ListCall.after c x
  | map _ _, c, x => MapCall.after c x
  | reducing _, c, x => ReducingCall.after c x

/-- A choice of values of every schema. -/
abbrev Selection := (s : Schema) → s.Val → Prop

/-- All values that a call hands over are selected. -/
def Within (used : Selection) : (t : StateType) → t.Call → Prop
  | value v, c => ValueCall.Within (used v) c
  | list v, c => ∀ x ∈ ListCall.elements c, used v x
  | map k v, c => MapCall.Within (used k) (used v) c
  | reducing v, c => ReducingCall.Within (used v) c

/-- The number of elements of a list is a 64-bit word. -/
def FitsMemory : (t : StateType) → t.Content → Prop
  | list _, x => List.length x < 2 ^ 64
  | _, _ => True

/-- Without elements to add there is nothing to do, with or without a current key. -/
def isIdle : (t : StateType) → t.Call → Bool
  | list _, .addAll values => values.isEmpty
  | _, _ => false

end StateType

export StateType (Selection)

namespace StateSpec

/-- What a call is answered with. -/
def Answers : (spec : StateSpec Id) → (c : spec.type.Call) → spec.type.Content →
    spec.type.Reply c → Prop
  | value _ _, c, x, reply => reply = ValueCall.answer c x
  | list _ _, c, x, reply => reply = ListCall.answer c x
  | map _ _ keys _, c, x, reply => MapCall.Answers (Serializer.Precedes keys) c x reply
  | reducing _ _ reduce, c, x, reply => reply = ReducingCall.answer reduce c x

/-- A call has one answer. -/
theorem Answers.unique {spec : StateSpec Id} {c : spec.type.Call} {x : spec.type.Content}
    {reply reply' : spec.type.Reply c} (h : spec.Answers c x reply) (h' : spec.Answers c x reply') :
    reply = reply' := by
  cases spec with
  | value v serializer => exact Eq.trans h (Eq.symm h')
  | list v serializer => exact Eq.trans h (Eq.symm h')
  | reducing v serializer reduce => exact Eq.trans h (Eq.symm h')
  | map k v keys values =>
      -- a map is listed in one order
      have one : ∀ {m : k.Val → Option v.Val} {l l' : List (k.Val × v.Val)},
          MapCall.Lists (Serializer.Precedes keys) m l →
            MapCall.Lists (Serializer.Precedes keys) m l' → l = l' :=
        MapCall.Lists.unique fun _ _ less => less.asymm
      cases c with
      | get key => exact Eq.trans h (Eq.symm h')
      | remove key => exact Eq.trans h (Eq.symm h')
      | contains key => exact Eq.trans h (Eq.symm h')
      | put key value => rfl
      | clear => rfl
      | keys =>
          obtain ⟨l, lists, rfl⟩ := h
          obtain ⟨l', lists', rfl⟩ := h'
          rw [one lists lists']
      | values =>
          obtain ⟨l, lists, rfl⟩ := h
          obtain ⟨l', lists', rfl⟩ := h'
          rw [one lists lists']
      | entries => exact one h h'
      | isEmpty => exact Bool.eq_iff_iff.2 (Iff.trans h (Iff.symm h'))

/-- The serializers are faithful to the selected values, among which the aggregates are. -/
def Faithful (used : Selection) : StateSpec Id → Prop
  | value v serializer => Serializer.Faithful serializer (used v)
  | list v serializer => Serializer.Faithful serializer (used v)
  | map k v keys values =>
    Serializer.Faithful keys (used k) ∧ Serializer.Faithful values (used v)
  | reducing v serializer reduce =>
    Serializer.Faithful serializer (used v) ∧ ∀ a b, used v a → used v b → used v (reduce a b)

end StateSpec

/-! ## Slots -/

/-- The slot's own value is what is written for a value, if there is one. -/
def ValueCall.Holds {V : Type} (serializer : Serializer V) (Q : V → Prop) (s : Slot)
    (x : Option V) : Prop :=
  Option.Rel (serializer.Writes Q) x s.value

/-- What is stored of serialized elements. -/
def ListCall.stored (elements : List Bytes) : Option Bytes :=
  if elements.isEmpty then none else some (ListCall.elementsCodec.encode elements)

/-- The slot's own value consists of the serialized elements of a list. -/
structure ListCall.Holds {V : Type} (serializer : Serializer V) (Q : V → Prop) (s : Slot)
    (x : List V) : Prop where
  used : ∀ v ∈ x, Q v
  stored : ∃ elements, x.mapM serializer.serialize = .ok elements ∧
    s.value = ListCall.stored elements

/-- The entries of the slot are those of a map, serialized. -/
structure MapCall.Holds {K V : Type} (keys : Serializer K) (values : Serializer V) (P : K → Prop)
    (Q : V → Prop) (s : Slot) (m : K → Option V) : Prop where
  used : ∀ k v, m k = some v → P k ∧ Q v
  stored : ∀ x y, s.get (some x) = some y ↔
    ∃ k v, m k = some v ∧ keys.serialize k = .ok x ∧ values.serialize v = .ok y

namespace StateSpec

/-- A slot holds a content. -/
def Holds (used : Selection) : (spec : StateSpec Id) → Slot → spec.type.Content → Prop
  | value v serializer, s, x => ValueCall.Holds serializer (used v) s x
  | list v serializer, s, x => ListCall.Holds serializer (used v) s x
  | map k v keys values, s, x => MapCall.Holds keys values (used k) (used v) s x
  | reducing v serializer reduce, s, x =>
    ValueCall.Holds serializer (used v) s (ReducingCall.aggregate reduce x)

end StateSpec

end KeyedState
