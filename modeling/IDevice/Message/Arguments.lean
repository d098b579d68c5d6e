import IDevice.Lib.Patch
import IDevice.Message.Codec

/-!
# `Message.Arguments` — do the arguments go out as they were appended?

An object that is appended leaves a placeholder in the auxiliary array and waits in `auxiliary_objects_`,
an `unordered_map`, until the message is serialized. Then its archive replaces the placeholder, in
whatever order the map is iterated; more arguments may be appended afterwards. `Appended` builds a message
in all these ways, and `Appended.completes` is its invariant: the array is the list of the arguments but
for the objects that still wait.

So the order is always right, and what can go wrong is the bytes: `SerializeTo` leaves out the length of
an empty string or buffer, truncates one of `2 ^ 32` bytes, and drops an array whose size is a multiple
of `2 ^ 32`. `ArgumentsWritten` excludes these.
-/

namespace IDevice

open LittleEndian DTXPrimitiveValue

/-- What `AppendAuxiliary` is called with. -/
inductive Argument (KAValue : Type) where
  | primitive (value : DTXPrimitiveValue)
  | object (value : KAValue)

section Arguments
variable {KAValue : Type} (archivedData : KAValue → Bytes)

/-- The value that is to go out for an argument. -/
def Argument.sent : Argument KAValue → DTXPrimitiveValue
  | .primitive value => value
  | .object value => .buffer (archivedData value)

/-- The array of the arguments. -/
def argumentArray (args : List (Argument KAValue)) : DTXPrimitiveArray :=
  { items := args.map (Argument.sent archivedData) }

/-- The message with the entries of `auxiliary_objects_` in the order in which the map is iterated. -/
def DTXMessage.iterated (m : DTXMessage KAValue) (order : List (Nat × KAValue)) : DTXMessage KAValue :=
  { m with auxiliaryObjects := order }

/-- `Appended selector args m`: `m` was made by `CreateWithSelector`, `args` were appended to it, and it was
    serialized any number of times in between. -/
inductive Appended (selector : KAValue) : List (Argument KAValue) → DTXMessage KAValue → Prop
  | create : Appended selector [] (DTXMessage.createWithSelector selector)
  | primitive {args : List (Argument KAValue)} {m : DTXMessage KAValue} (value : DTXPrimitiveValue)
      (h : Appended selector args m) :
      Appended selector (args ++ [.primitive value]) (m.appendAuxiliary value)
  | object {args : List (Argument KAValue)} {m : DTXMessage KAValue} (object : KAValue)
      (h : Appended selector args m) :
      Appended selector (args ++ [.object object]) (m.appendAuxiliaryObject object)
  | serializedLength {args : List (Argument KAValue)} {m : DTXMessage KAValue}
      {order : List (Nat × KAValue)} (h : Appended selector args m)
      (horder : order.Perm m.auxiliaryObjects) :
      Appended selector args ((m.iterated order).serializedLength archivedData).2
  | serializeTo {args : List (Argument KAValue)} {m m' : DTXMessage KAValue}
      {order : List (Nat × KAValue)} {τ : Type} {serializer : Serializer τ} {s s' : τ} {ret : Bool}
      (h : Appended selector args m) (horder : order.Perm m.auxiliaryObjects)
      (hcall : (m.iterated order).serializeTo archivedData serializer s = .ok (ret, m', s')) :
      Appended selector args m'

/-- The bytes are a header, an array with the values of the arguments, in their order and without the
    nulls, and the archive of the selector. Where there is no value, there may be no array. -/
def HoldsArguments (selector : KAValue) (args : List (Argument KAValue)) (emitted : Bytes) : Prop :=
  ∃ header array, emitted = header ++ (array ++ archivedData selector) ∧ header.length = 16 ∧
    (array = [] ∧ (argumentArray archivedData args).wireEntries = [] ∨
      Describes array (argumentArray archivedData args).wireEntries)

/-- `SerializeTo` emits the arguments, however the map is iterated, and the same bytes when it is called
    again. -/
def EmitsArguments (selector : KAValue) (args : List (Argument KAValue)) (m : DTXMessage KAValue) : Prop :=
  ∀ order, order.Perm m.auxiliaryObjects → ∃ m' emitted,
    (m.iterated order).serializeTo archivedData keepBytes [] = .ok (true, m', emitted) ∧
    HoldsArguments archivedData selector args emitted ∧
    ∃ m'', m'.serializeTo archivedData keepBytes [] = .ok (true, m'', emitted)

/-- The length of the arguments in the format: the header of the array, and the entries. -/
def argumentsLength (args : List (Argument KAValue)) : Nat :=
  16 + ((argumentArray archivedData args).wireEntries.flatMap entry).length

/-- No string or buffer, given or archived, is empty or has `2 ^ 32` bytes, and the length of the
    arguments, if there are any, is no multiple of `2 ^ 32` and fits the field for the size. -/
def ArgumentsWritten (args : List (Argument KAValue)) : Prop :=
  (argumentArray archivedData args).LengthsWritten ∧
    (args = [] ∨ argumentsLength archivedData args % 2 ^ 32 ≠ 0 ∧
      argumentsLength archivedData args < 2 ^ 64 + 16)

/-! ## The array while objects wait -/

/-- The objects that wait, as patches of the array. -/
def waiting (objects : List (Nat × KAValue)) : List (Nat × DTXPrimitiveValue) :=
  objects.map fun it => (it.1, .buffer (archivedData it.2))

/-- The array of the message is that of the arguments, but for the objects that wait; the payload is the
    selector or its archive. -/
structure Collects (selector : KAValue) (args : List (Argument KAValue)) (m : DTXMessage KAValue) :
    Prop where
  array : ∃ items, m.auxiliary = some { items := items } ∧
    Patch.Completes (waiting archivedData m.auxiliaryObjects) items
      (argumentArray archivedData args).items
  object : m.payloadObject = some selector
  payload : m.payloadBuffer = none ∨ m.payloadBuffer = some (archivedData selector)

variable {archivedData} {selector : KAValue} {args : List (Argument KAValue)} {m m' : DTXMessage KAValue}
  {order : List (Nat × KAValue)}

theorem argumentArray_snoc (args : List (Argument KAValue)) (argument : Argument KAValue) :
    (argumentArray archivedData (args ++ [argument])).items =
      (argumentArray archivedData args).items ++ [argument.sent archivedData] := by
  simp [argumentArray]

theorem Collects.iterated (h : Collects archivedData selector args m)
    (horder : order.Perm m.auxiliaryObjects) : Collects archivedData selector args (m.iterated order) := by
  obtain ⟨items, hitems, hcompletes⟩ := h.array
  exact ⟨⟨items, hitems, hcompletes.perm (horder.map _)⟩, h.object, h.payload⟩

/-- Archiving the waiting objects completes the array. -/
theorem Collects.materialize (h : Collects archivedData selector args m) :
    (m.materialize archivedData).auxiliary = some (argumentArray archivedData args) ∧
      (m.materialize archivedData).auxiliaryObjects = [] ∧
      (m.materialize archivedData).payloadObject = some selector ∧
      (m.materialize archivedData).payloadBuffer = some (archivedData selector) := by
  obtain ⟨items, hitems, hcompletes⟩ := h.array
  have hfold : m.auxiliaryObjects.foldl
      (fun items it => items.set it.1 (.buffer (archivedData it.2))) items =
        (argumentArray archivedData args).items := by
    rw [← hcompletes.applyAll_eq, Patch.applyAll, waiting, List.foldl_map]
  have hobject := h.object
  unfold DTXMessage.materialize DTXMessage.maybeSerializePayloadObject
    DTXMessage.maybeSerializeAuxiliaryObjects
  rcases h.payload with hpayload | hpayload
  · simp [hitems, hobject, hpayload, hfold]
    rfl
  · simp [hitems, hobject, hpayload, hfold]
    rfl

theorem Collects.materialized (h : Collects archivedData selector args m) :
    Collects archivedData selector args (m.materialize archivedData) := by
  obtain ⟨harray, hnone, hobject, hpayload⟩ := h.materialize
  refine ⟨⟨_, harray, ?_⟩, hobject, .inr hpayload⟩
  rw [hnone]
  exact Patch.completes_self _

/-- `SerializeTo` leaves the message with its objects archived. -/
theorem serializeTo_message {τ : Type} {serializer : Serializer τ} {s s' : τ} {ret : Bool}
    (hcall : m.serializeTo archivedData serializer s = .ok (ret, m', s')) :
    m' = m.materialize archivedData := by
  rw [DTXMessage.serializeTo_eq] at hcall
  cases hcalls : Callback.calls serializer s (m.writes archivedData) with
  | error stop =>
      rw [hcalls] at hcall
      cases hcall
  | ok t =>
      rw [hcalls] at hcall
      cases hcall
      rfl

/-- **Every message that is built so** collects its arguments. -/
theorem Appended.collects (h : Appended archivedData selector args m) :
    Collects archivedData selector args m := by
  induction h with
  | create => exact ⟨⟨[], rfl, Patch.completes_self _⟩, rfl, .inl rfl⟩
  | primitive value h ih =>
      obtain ⟨items, hitems, hcompletes⟩ := ih.array
      refine ⟨⟨items ++ [value], ?_, ?_⟩, ih.object, ih.payload⟩
      · simp [DTXMessage.appendAuxiliary, hitems, DTXPrimitiveArray.append]
      · rw [argumentArray_snoc]
        exact hcompletes.concat value
  | @object args m object h ih =>
      obtain ⟨items, hitems, hcompletes⟩ := ih.array
      have hpatched := hcompletes.concat_patch .null (.buffer (archivedData object))
      have happend : m.appendAuxiliaryObject object =
          { m with auxiliary := some { items := items ++ [.null] },
                   auxiliaryObjects := m.auxiliaryObjects ++ [(items.length, object)] } := by
        simp [DTXMessage.appendAuxiliaryObject, hitems, DTXPrimitiveArray.append]
      rw [happend]
      refine ⟨⟨items ++ [.null], rfl, ?_⟩, ih.object, ih.payload⟩
      rw [argumentArray_snoc, waiting, List.map_append]
      exact hpatched
  | serializedLength h horder ih => exact (ih.iterated horder).materialized
  | serializeTo h horder hcall ih =>
      rw [serializeTo_message hcall]
      exact (ih.iterated horder).materialized

/-! ## What is emitted -/

theorem itemEntries_length (asDict : Bool) (v : DTXPrimitiveValue) :
    ((DTXPrimitiveArray.itemEntries asDict v).flatMap entry).length =
      DTXPrimitiveArray.itemLength asDict v := by
  have hentry : v.entry.length = 4 + ((if v.hasLength then 4 else 0) + v.size) := by
    unfold entry
    cases v.hasLength <;> simp
  have hkey : DTXPrimitiveValue.emptyKey.entry.length = 4 := rfl
  unfold DTXPrimitiveArray.itemEntries DTXPrimitiveArray.itemLength
  by_cases hnull : v = .null
  · simp [hnull, getType]
  · rw [if_neg hnull, if_neg (mt (DTXPrimitiveArray.getType_eq_zero_iff v).mp hnull)]
    cases asDict <;> simp [hentry, hkey] <;> omega

theorem wireEntries_length (a : DTXPrimitiveArray) :
    (a.wireEntries.flatMap entry).length =
      (a.items.map (DTXPrimitiveArray.itemLength a.asDict)).sum := by
  unfold DTXPrimitiveArray.wireEntries
  induction a.items with
  | nil => rfl
  | cons v items ih =>
      rw [List.flatMap_cons, List.flatMap_append, List.length_append, itemEntries_length, ih,
        List.map_cons, List.sum_cons]

theorem serializedLength_argumentArray (hargs : args ≠ []) :
    (argumentArray archivedData args).serializedLength = argumentsLength archivedData args := by
  have hitems : (argumentArray archivedData args).items ≠ [] := by simpa [argumentArray] using hargs
  rw [DTXPrimitiveArray.serializedLength_of_ne_nil hitems, argumentsLength, wireEntries_length]

/-- **What an array emits is in the format** exactly when its lengths are written and its size fits. -/
theorem describes_writes_iff {a : DTXPrimitiveArray} (hitems : a.items ≠ []) :
    Describes a.writes.flatten a.wireEntries ↔ a.LengthsWritten ∧ a.serializedLength < 2 ^ 64 + 16 := by
  constructor
  · intro h
    have hfield : field a.writes.flatten 8 8 = a.sizeField.toNat := by
      simpa using a.field_size []
    have hlength : a.writes.flatten.length = a.serializedLength := by
      have hentries := congrArg List.length h.entries
      have hheader := h.header
      rw [List.length_drop, wireEntries_length] at hentries
      rw [DTXPrimitiveArray.serializedLength_of_ne_nil hitems]
      omega
    have hsize := h.size
    have hlt := a.sizeField.toNat_lt
    exact ⟨(DTXPrimitiveArray.writes_length_eq_iff hitems).mp hlength, by omega⟩
  · rintro ⟨hwritten, hlt⟩
    exact DTXPrimitiveArray.writes_describes hitems hwritten hlt

/-- An array without entries is 16 bytes, if it is not empty. -/
theorem serializedLength_of_wireEntries_nil {a : DTXPrimitiveArray} (hitems : a.items ≠ [])
    (hnil : a.wireEntries = []) : a.serializedLength = 16 := by
  have hlength := wireEntries_length a
  rw [hnil] at hlength
  rw [DTXPrimitiveArray.serializedLength_of_ne_nil hitems, ← hlength]
  rfl

/-- What stands between the header and the payload. -/
theorem Collects.serialized (h : Collects archivedData selector args m) :
    m.serialized archivedData = (m.materialize archivedData).payloadHeader ++
      ((m.materialize archivedData).auxiliaryBytes ++ archivedData selector) := by
  rw [DTXMessage.serialized_eq, h.materialize.2.2.2, Option.getD_some]

theorem Collects.auxiliaryBytes (h : Collects archivedData selector args m) :
    (m.materialize archivedData).auxiliaryBytes =
      if (argumentArray archivedData args).serializedLength % 2 ^ 32 = 0 then []
      else (argumentArray archivedData args).writes.flatten := by
  have harray := h.materialize.1
  have hpos := (m.materialize archivedData).auxiliaryLength_pos_iff
  rw [DTXMessage.auxiliaryCount, harray, Option.map_some, Option.getD_some] at hpos
  unfold DTXMessage.auxiliaryBytes
  by_cases hzero : (argumentArray archivedData args).serializedLength % 2 ^ 32 = 0
  · rw [if_pos hzero, if_neg (mt hpos.mp (by omega))]
  · rw [if_neg hzero, if_pos (hpos.mpr (Nat.pos_of_ne_zero hzero)), harray, Option.getD_some]

/-- The arguments are read where the array of the message stands. -/
theorem holdsArguments_iff_auxiliaryBytes (h : Collects archivedData selector args m) :
    HoldsArguments archivedData selector args (m.serialized archivedData) ↔
      ((m.materialize archivedData).auxiliaryBytes = [] ∧
          (argumentArray archivedData args).wireEntries = [] ∨
        Describes (m.materialize archivedData).auxiliaryBytes
          (argumentArray archivedData args).wireEntries) := by
  rw [h.serialized]
  constructor
  · -- the header has 16 bytes and the payload is the selector's, so only the array is left
    rintro ⟨header, array, hbytes, hheader, harray⟩
    have hlen := (m.materialize archivedData).payloadHeader_length
    obtain ⟨-, hrest⟩ := List.append_inj hbytes (hlen.trans hheader.symm)
    rwa [List.append_cancel_right hrest]
  · intro harray
    exact ⟨_, _, rfl, DTXMessage.payloadHeader_length _, harray⟩

/-- **The bytes hold the arguments** exactly when they can all be written. -/
theorem holdsArguments_iff (h : Collects archivedData selector args m) :
    HoldsArguments archivedData selector args (m.serialized archivedData) ↔
      ArgumentsWritten archivedData args := by
  rw [holdsArguments_iff_auxiliaryBytes h, h.auxiliaryBytes, ArgumentsWritten]
  by_cases hargs : args = []
  · -- no argument, and nothing is emitted
    subst hargs
    simp [argumentArray, DTXPrimitiveArray.wireEntries, DTXPrimitiveArray.serializedLength,
      DTXPrimitiveArray.LengthsWritten]
  have hitems : (argumentArray archivedData args).items ≠ [] := by simpa [argumentArray] using hargs
  rw [← serializedLength_argumentArray hargs]
  by_cases hzero : (argumentArray archivedData args).serializedLength % 2 ^ 32 = 0
  · -- the array is left out, although it has an entry
    rw [if_pos hzero]
    constructor
    · rintro (⟨-, hnil⟩ | hdescribes)
      · rw [serializedLength_of_wireEntries_nil hitems hnil] at hzero
        exact absurd hzero (by decide)
      · exact absurd hdescribes.header (by simp)
    · rintro ⟨-, hnil | ⟨hne, -⟩⟩
      · exact absurd hnil hargs
      · exact absurd hzero hne
  · -- the array is written, and it can be read back exactly when its lengths are all there
    rw [if_neg hzero, describes_writes_iff hitems]
    constructor
    · rintro (⟨hnil, -⟩ | ⟨hwritten, hlt⟩)
      · have hlen := congrArg List.length hnil
        rw [DTXPrimitiveArray.writes_length, List.length_nil] at hlen
        omega
      · exact ⟨hwritten, .inr ⟨hzero, hlt⟩⟩
    · rintro ⟨hwritten, hnil | ⟨-, hlt⟩⟩
      · exact absurd hnil hargs
      · exact .inr ⟨hwritten, hlt⟩

/-- **The arguments go out as they were appended** exactly when they can all be written. -/
theorem emitsArguments_iff (h : Appended archivedData selector args m) :
    EmitsArguments archivedData selector args m ↔ ArgumentsWritten archivedData args := by
  constructor
  · intro hemits
    obtain ⟨m', emitted, hcall, hholds, -⟩ := hemits m.auxiliaryObjects (List.Perm.refl _)
    rw [DTXMessage.serializeTo_keepBytes] at hcall
    cases hcall
    exact (holdsArguments_iff (h.collects.iterated (List.Perm.refl _))).mp hholds
  · intro hwritten order horder
    refine ⟨(m.iterated order).materialize archivedData, _, DTXMessage.serializeTo_keepBytes _ _,
      (holdsArguments_iff (h.collects.iterated horder)).mpr hwritten,
      (m.iterated order).materialize archivedData, ?_⟩
    rw [DTXMessage.serializeTo_keepBytes, DTXMessage.materialize_materialize, DTXMessage.serialized,
      DTXMessage.writes_materialize]
    rfl

end Arguments

/-- Every object is archived in one byte. -/
def archiveByte (_ : Unit) : Bytes := [1]

/-- An object whose placeholder is filled by `SerializedLength`, and a number behind it. -/
theorem emitsArguments_iff_two :
    EmitsArguments archiveByte () [.object (), .primitive (.integer 5)]
      ((((DTXMessage.createWithSelector ()).appendAuxiliaryObject ()).serializedLength archiveByte).2.appendAuxiliary
        (.integer 5)) ↔
      ArgumentsWritten archiveByte [.object (), .primitive (.integer 5)] :=
  emitsArguments_iff (.primitive _ (.serializedLength (.object () .create) (List.Perm.refl [(0, ())])))

/-- The length of an empty string is not emitted. -/
theorem not_emitsArguments_emptyString :
    Appended archiveByte () [.primitive (.string [])]
      ((DTXMessage.createWithSelector ()).appendAuxiliary (.string [])) ∧
    ¬ EmitsArguments archiveByte () [.primitive (.string [])]
      ((DTXMessage.createWithSelector ()).appendAuxiliary (.string [])) := by
  have happended : Appended archiveByte () [.primitive (.string [])]
      ((DTXMessage.createWithSelector ()).appendAuxiliary (.string [])) := .primitive _ .create
  refine ⟨happended, fun hemits => ?_⟩
  obtain ⟨m', emitted, hcall, hholds, -⟩ := hemits [] (List.Perm.refl _)
  rw [DTXMessage.serializeTo_keepBytes] at hcall
  cases hcall
  have hwritten := ((holdsArguments_iff (happended.collects.iterated (List.Perm.refl _))).mp hholds).1
  have hlength := hwritten (.string []) (by decide) rfl
  exact absurd hlength.1 (by decide)

end IDevice
