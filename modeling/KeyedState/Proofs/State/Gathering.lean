import KeyedState.Proofs.State.OwnValue

/-!
# Lists and aggregates

A list and an aggregate gather what is added to them (`Gathering`). What was gathered is stored as
one value (`Gathering.Encodes`). A look decodes it (`Gathering.decode_eq_ok`); an addition replaces
it by what encodes the values that it adds as well (`Gathering.encodes_appended`,
`Gathering.encodes_reduced`), or starts anew where it finds nothing.
-/

namespace KeyedState

variable {V : Type} {v : Schema}

/-- Values that were written one by one are read back. -/
theorem Serializer.RoundTrips.mapM_back {serializer : Serializer V} {Q : V → Prop}
    (roundTrips : serializer.RoundTrips Q) {values : List V} (within : ∀ x ∈ values, Q x)
    {elements : List Bytes} (written : values.mapM serializer.serialize = .ok elements) :
    elements.mapM serializer.deserialize = .ok values := by
  induction values generalizing elements with
  | nil =>
      cases written
      rfl
  | cons x rest ih =>
      rw [List.mapM_cons] at written
      cases first : serializer.serialize x with
      | error e =>
          rw [first] at written
          cases written
      | ok bytes =>
          cases others : rest.mapM serializer.serialize with
          | error e =>
              rw [first, others] at written
              cases written
          | ok elements' =>
              rw [first, others] at written
              cases written
              have back := (roundTrips x bytes ⟨within x List.mem_cons_self, first⟩).1
              have all := ih (fun y member => within y (List.mem_cons_of_mem x member)) others
              rw [List.mapM_cons, back, all]
              rfl

/-- The aggregate of selected values is selected. -/
theorem ReducingCall.aggregate_mem {reduce : V → V → V} {Q : V → Prop}
    (closed : ∀ x y, Q x → Q y → Q (reduce x y)) {values : List V} (within : ∀ x ∈ values, Q x)
    {x : V} (aggregated : aggregate reduce values = some x) : Q x := by
  induction values using List.reverseRecOn generalizing x with
  | nil => cases aggregated
  | append_singleton rest last ih =>
      rw [aggregate_append] at aggregated
      cases aggregated
      have last_mem : Q last := within last (List.mem_append_right rest (List.mem_singleton_self last))
      cases earlier : aggregate reduce rest with
      | none => exact last_mem
      | some current =>
          exact closed _ _ (ih (fun y member => within y (List.mem_append_left _ member)) earlier)
            last_mem

/-! ## Additions -/

namespace ListCall

/-- What appending elements makes of the value that it finds. -/
def appended (serializer : Serializer V) (values : List V) (found : Option Bytes) :
    Except StateError Bytes := do
  let elements ← loaded found
  let added ← values.mapM serializer.serialize
  return elementsCodec.encode (elements ++ added)

/-- Appending at least one element replaces the value. -/
theorem append_eq {σ : Type} (serializer : Serializer V) (store : Store σ)
    (scope : Action σ SlotAddress) {values : List V} (some : values ≠ []) :
    append serializer store scope values = scope >>= fun slot => store.get slot.whole >>= fun found =>
      Action.lift (appended serializer values found) >>= fun bytes =>
        store.put slot.whole bytes := by
  rw [append, if_neg fun none => some (List.isEmpty_iff.1 none)]
  congr 1
  funext slot
  rw [load_eq, bind_assoc]
  congr 1
  funext found
  rw [appended]
  cases loaded found with
  | error e => rfl
  | ok elements =>
      cases written : values.mapM serializer.serialize with
      | error e => rfl
      | ok added =>
          -- so many elements are added as there are values
          have count := (writes_of_mapM (Q := fun _ => True) written fun _ _ => trivial).1
          have more : ¬ (elements ++ added).isEmpty = true := by
            intro empty
            rw [(List.append_eq_nil_iff.1 (List.isEmpty_iff.1 empty)).2] at count
            exact some (List.eq_nil_of_length_eq_zero count.symm)
          show save store slot (elements ++ added) = _
          rw [save, if_neg more]
          rfl

end ListCall

namespace ReducingCall

/-- What taking a value into the aggregate makes of the one that is found. -/
def reduced (serializer : Serializer V) (reduce : V → V → V) (value : V) (found : Option Bytes) :
    Except StateError Bytes := do
  match ← decodeFound serializer found with
  | none => serializer.serialize value
  | some current => serializer.serialize (reduce current value)

/-- Adding a value replaces the aggregate. -/
theorem add_eq {σ : Type} (serializer : Serializer V) (reduce : V → V → V) (store : Store σ)
    (scope : Action σ SlotAddress) (value : V) :
    perform serializer reduce store scope (.add value) = scope >>= fun slot =>
      store.get slot.whole >>= fun found =>
        Action.lift (reduced serializer reduce value found) >>= fun bytes =>
          store.put slot.whole bytes := by
  rw [perform]
  congr 1
  funext slot
  congr 1
  funext found
  rw [reduced]
  cases decodeFound serializer found with
  | error e => rfl
  | ok aggregate => cases aggregate <;> rfl

end ReducingCall

/-! ## What is gathered -/

/-- A state that gathers values: a list of them, or an aggregate. -/
inductive Gathering (v : Schema) where
  | list (serializer : Serializer v.Val)
  | reducing (serializer : Serializer v.Val) (reduce : v.Val → v.Val → v.Val)

namespace Gathering

/-- How the state is written. -/
def spec : Gathering v → StateSpec Id
  | list serializer => .list v serializer
  | reducing serializer reduce => .reducing v serializer reduce

/-- The call that asks for what was gathered. -/
def look : (g : Gathering v) → g.spec.type.Call
  | list _ => ListCall.get
  | reducing _ _ => ReducingCall.get

/-- The answer where the given values were gathered: the list of them, or their aggregate. -/
def answer : (g : Gathering v) → List v.Val → g.spec.type.Reply g.look
  | list _, values => values
  | reducing _ reduce, values => ReducingCall.aggregate reduce values

/-- The call adds the values, of which there is at least one. -/
def Adds : (g : Gathering v) → g.spec.type.Call → List v.Val → Prop
  | list _, c, values =>
    (∃ x, c = ListCall.add x ∧ values = [x]) ∨ c = ListCall.addAll values ∧ values ≠ []
  | reducing _ _, c, values => ∃ x, c = ReducingCall.add x ∧ values = [x]

/-- The bytes are what is stored of the values that were gathered. -/
def Encodes : Gathering v → List v.Val → Bytes → Prop
  | list serializer, values, bytes =>
    ∃ elements, values.mapM serializer.serialize = .ok elements ∧
      bytes = ListCall.elementsCodec.encode elements
  | reducing serializer reduce, values, bytes =>
    ∃ x, ReducingCall.aggregate reduce values = some x ∧ serializer.serialize x = .ok bytes

/-- What is found where the given values were gathered: nothing for none. -/
def Finds (g : Gathering v) (values : List v.Val) : Option Bytes → Prop
  | none => values = []
  | some bytes => g.Encodes values bytes

/-- What a look makes of the value that it finds. -/
def decode : (g : Gathering v) → Option Bytes → Except StateError (g.spec.type.Reply g.look)
  | list serializer => fun found =>
    ListCall.loaded found >>= fun elements => elements.mapM serializer.deserialize
  | reducing serializer _ => decodeFound serializer

theorem reads_look (g : Gathering v) : g.spec.Reads g.look g.decode := by
  cases g with
  | list serializer => exact StateSpec.reads_list serializer
  | reducing serializer reduce => exact StateSpec.reads_reducing serializer reduce

/-- The values are selected, and so few that their number is a word. -/
structure Fits (used : Selection) (values : List v.Val) : Prop where
  selected : ∀ x ∈ values, used v x
  few : values.length < 2 ^ 64

section Back

variable {used : Selection} {serializer : Serializer v.Val} {reduce : v.Val → v.Val → v.Val}
  {values : List v.Val} {found : Option Bytes} {bytes : Bytes}

theorem Fits.sublist (fits : Fits used values) {some : List v.Val} (of : some.Sublist values) :
    Fits used some :=
  ⟨fun x member => fits.selected x (of.subset member), Nat.lt_of_le_of_lt of.length_le fits.few⟩

/-- The elements of a list are loaded as they were written, and read back. -/
theorem loaded_of_finds (roundTrips : serializer.RoundTrips (used v)) (fits : Fits used values)
    (finds : Finds (.list serializer) values found) :
    ∃ elements, ListCall.loaded found = .ok elements ∧
      values.mapM serializer.serialize = .ok elements ∧
      elements.mapM serializer.deserialize = .ok values := by
  cases found with
  | none =>
      obtain rfl : values = [] := finds
      exact ⟨[], rfl, rfl, rfl⟩
  | some bytes =>
      obtain ⟨elements, written, rfl⟩ := finds
      obtain ⟨count, each⟩ := ListCall.writes_of_mapM written fits.selected
      obtain ⟨n, read, whole⟩ := ListCall.exists_read_encode elements fun e member =>
        (each e member).elim fun x hx => (roundTrips x e hx).2
      refine ⟨elements, ?_, written, roundTrips.mapM_back fits.selected written⟩
      rw [ListCall.loaded, read, whole (count ▸ fits.few), List.take_length]
      rfl

/-- The aggregate is read back as it was written. -/
theorem decodeFound_of_finds (roundTrips : StateSpec.RoundTrips used (.reducing v serializer reduce))
    (fits : Fits used values) (finds : Finds (.reducing serializer reduce) values found) :
    decodeFound serializer found = .ok (ReducingCall.aggregate reduce values) := by
  cases found with
  | none =>
      obtain rfl : values = [] := finds
      rfl
  | some bytes =>
      obtain ⟨x, reduced, written⟩ := finds
      have member := ReducingCall.aggregate_mem roundTrips.2 fits.selected reduced
      rw [decodeFound, (roundTrips.1 x bytes ⟨member, written⟩).1, reduced]
      rfl

/-- A look gives what was gathered. -/
theorem decode_eq_ok {g : Gathering v} (roundTrips : g.spec.RoundTrips used)
    (fits : Fits used values) (finds : g.Finds values found) : g.decode found = .ok (g.answer values) := by
  cases g with
  | list serializer =>
      obtain ⟨elements, loaded, -, back⟩ := loaded_of_finds roundTrips fits finds
      show (ListCall.loaded found >>= _) = _
      rw [loaded]
      exact back
  | reducing serializer reduce => exact decodeFound_of_finds roundTrips fits finds

/-- Values that are appended to a list are gathered behind the others. -/
theorem encodes_appended (roundTrips : serializer.RoundTrips (used v)) (fits : Fits used values)
    (finds : Finds (.list serializer) values found) {more : List v.Val}
    (made : ListCall.appended serializer more found = .ok bytes) :
    Encodes (.list serializer) (values ++ more) bytes := by
  obtain ⟨elements, loaded, written, -⟩ := loaded_of_finds roundTrips fits finds
  rw [ListCall.appended, loaded] at made
  cases added : more.mapM serializer.serialize with
  | error e =>
      rw [added] at made
      cases made
  | ok elements' =>
      rw [added] at made
      cases made
      refine ⟨elements ++ elements', ?_, rfl⟩
      rw [List.mapM_append, written, added]
      rfl

/-- A value that is added to an aggregate is reduced behind the others. -/
theorem encodes_reduced (roundTrips : StateSpec.RoundTrips used (.reducing v serializer reduce))
    (fits : Fits used values) (finds : Finds (.reducing serializer reduce) values found)
    {x : v.Val} (made : ReducingCall.reduced serializer reduce x found = .ok bytes) :
    Encodes (.reducing serializer reduce) (values ++ [x]) bytes := by
  rw [ReducingCall.reduced, decodeFound_of_finds roundTrips fits finds] at made
  refine ⟨_, ReducingCall.aggregate_append reduce values x, ?_⟩
  cases aggregate : ReducingCall.aggregate reduce values with
  | none =>
      rw [aggregate] at made
      exact made
  | some current =>
      rw [aggregate] at made
      exact made

/-- An addition replaces the value that it finds by one that encodes what it adds as well. -/
theorem exists_rewrites {g : Gathering v} (roundTrips : g.spec.RoundTrips used)
    {c : g.spec.type.Call} {more : List v.Val} (adds : g.Adds c more) :
    ∃ f, g.spec.Rewrites c f ∧ ∀ {values : List v.Val} {found : Option Bytes} {bytes : Bytes},
      Fits used values → g.Finds values found → f found = .ok bytes →
        g.Encodes (values ++ more) bytes := by
  cases g with
  | list serializer =>
      refine ⟨ListCall.appended serializer more, fun store scope w w' reply done => ?_,
        fun fits finds => encodes_appended roundTrips fits finds⟩
      rcases adds with ⟨x, rfl, rfl⟩ | ⟨rfl, some⟩
      · rw [← ListCall.append_eq serializer store scope (List.cons_ne_nil x [])]
        exact done
      · rw [← ListCall.append_eq serializer store scope some]
        exact done
  | reducing serializer reduce =>
      obtain ⟨x, rfl, rfl⟩ := adds
      refine ⟨ReducingCall.reduced serializer reduce x, fun store scope w w' reply done => ?_,
        fun fits finds => encodes_reduced roundTrips fits finds⟩
      rw [← ReducingCall.add_eq]
      exact done

end Back

end Gathering

end KeyedState
