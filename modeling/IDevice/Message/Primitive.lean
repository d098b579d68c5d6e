import IDevice.Lib.Callback
import IDevice.Wire.Header

/-!
# `Message.Primitive` — `DTXPrimitiveValue` and `DTXPrimitiveArray`

The arguments of a message (`dtxprimitivearray.h`) and how they are serialized. Serialization hands
its bytes to a callback piece by piece and drops the flags the callback returns;
`DTXPrimitiveArray.writes` is the list of these pieces and `serializeTo_eq` says that the code makes
exactly these calls.
-/

namespace IDevice

open LittleEndian

/-- Why a call does not return: it reads behind a buffer, or it is still running when the fuel is
    used up. -/
inductive Stop where
  | outOfBounds
  | outOfFuel
deriving DecidableEq, Repr

/-- `std::function<bool(const char*, size_t)>`, with the state it works on. -/
abbrev Serializer (τ : Type) := Callback Stop τ Bytes

/-- A value with its type tag. Floats are carried by their bits. -/
inductive DTXPrimitiveValue where
  | null
  | string (str : Bytes)
  | buffer (bytes : Bytes)
  | signedInt32 (i32 : Int32)
  | signedInt64 (i64 : Int64)
  | float32 (bits : UInt32)
  | float64 (bits : UInt64)
  | integer (u : UInt64)
  | emptyKey
deriving DecidableEq, Repr

namespace DTXPrimitiveValue

/-- `DTXPrimitiveValue::Type`. -/
def getType : DTXPrimitiveValue → UInt32
  | null => 0
  | string _ => 1
  | buffer _ => 2
  | signedInt32 _ => 3
  | signedInt64 _ => 4
  | float32 _ => 5
  | float64 _ => 6
  | integer _ => 9
  | emptyKey => 10

def size : DTXPrimitiveValue → Nat
  | null => 0
  | string str => str.length
  | buffer bytes => bytes.length
  | signedInt32 _ => 4
  | signedInt64 _ => 8
  | float32 _ => 4
  | float64 _ => 8
  | integer _ => 8
  | emptyKey => 0

/-- The bytes behind `ToStr()`, `ToBuffer()` or `RawData()`. -/
def content : DTXPrimitiveValue → Bytes
  | null => []
  | string str => str
  | buffer bytes => bytes
  | signedInt32 i32 => toLE 4 i32.toUInt32.toNat
  | signedInt64 i64 => toLE 8 i64.toUInt64.toNat
  | float32 bits => toLE 4 bits.toNat
  | float64 bits => toLE 8 bits.toNat
  | integer u => toLE 8 u.toNat
  | emptyKey => []

/-- The types that have a length field on the wire. -/
def hasLength : DTXPrimitiveValue → Bool
  | string _ => true
  | buffer _ => true
  | _ => false

@[simp] theorem content_length (v : DTXPrimitiveValue) : v.content.length = v.size := by
  cases v <;> simp [content, size]

end DTXPrimitiveValue

structure DTXPrimitiveArray where
  items : List DTXPrimitiveValue := []
  asDict : Bool := true
deriving DecidableEq, Repr

def kDTXPrimitiveArrayDefaultSize : UInt64 := 0x200
def kDTXPrimitiveArrayHeaderSize : UInt64 := 0x10
def kDTXPrimitiveArrayCapacityAlignment : UInt64 :=
  kDTXPrimitiveArrayDefaultSize + kDTXPrimitiveArrayHeaderSize
def kDTXPrimitiveArrayDefaultCapacity : UInt64 :=
  kDTXPrimitiveArrayDefaultSize - kDTXPrimitiveArrayHeaderSize

/-- `IDEVICE_MEM_ALIGN`. -/
def memAlign (v a : UInt64) : UInt64 := (v + a - 1) &&& ~~~(a - 1)

namespace DTXPrimitiveArray

def append (a : DTXPrimitiveArray) (item : DTXPrimitiveValue) : DTXPrimitiveArray :=
  { a with items := a.items ++ [item] }

/-- What one item adds in the loop of `SerializedLength`. -/
def itemLength (asDict : Bool) (item : DTXPrimitiveValue) : Nat :=
  if item.getType = 0 then 0
  else (if asDict then 4 else 0) + 4 + (if item.hasLength then 4 else 0) + item.size

def serializedLength (a : DTXPrimitiveArray) : Nat :=
  if a.items ≠ [] then
    kDTXPrimitiveArrayHeaderSize.toNat + (a.items.map (itemLength a.asDict)).sum
  else 0

/-- The loop body of `SerializeTo`. -/
def serializeItem {τ : Type} (asDict : Bool) (serializer : Serializer τ) (s : τ)
    (item : DTXPrimitiveValue) : Except Stop τ := do
  if item.getType = 0 then return s
  let s ← if asDict then Callback.call serializer s (toLE 4 DTXPrimitiveValue.emptyKey.getType.toNat)
    else pure s
  let s ← Callback.call serializer s (toLE 4 item.getType.toNat)
  if item.size = 0 then return s
  if item.hasLength then
    let length := UInt32.ofNat item.size
    let s ← Callback.call serializer s (toLE 4 length.toNat)
    Callback.call serializer s (item.content.take length.toNat)
  else
    Callback.call serializer s item.content

def serializeItems {τ : Type} (asDict : Bool) (serializer : Serializer τ) :
    τ → List DTXPrimitiveValue → Except Stop τ
  | s, [] => .ok s
  | s, item :: items =>
    serializeItem asDict serializer s item >>= fun s => serializeItems asDict serializer s items

/-- The `size` field: a `size_t`, which wraps for an array without items. -/
def sizeField (a : DTXPrimitiveArray) : UInt64 :=
  UInt64.ofNat a.serializedLength - kDTXPrimitiveArrayHeaderSize

/-- The `capacity` field. -/
def capacityField (a : DTXPrimitiveArray) : UInt64 :=
  memAlign (max kDTXPrimitiveArrayDefaultCapacity a.sizeField) kDTXPrimitiveArrayCapacityAlignment

def serializeTo {τ : Type} (a : DTXPrimitiveArray) (serializer : Serializer τ) (s : τ) :
    Except Stop (Bool × τ) := do
  let s ← Callback.call serializer s (toLE 8 a.capacityField.toNat)
  let s ← Callback.call serializer s (toLE 8 a.sizeField.toNat)
  let s ← serializeItems a.asDict serializer s a.items
  return (true, s)

/-! ## The calls that serialization makes -/

/-- The pieces of one item. -/
def itemWrites (asDict : Bool) (item : DTXPrimitiveValue) : List Bytes :=
  if item.getType = 0 then []
  else
    (if asDict then [toLE 4 DTXPrimitiveValue.emptyKey.getType.toNat] else []) ++
    [toLE 4 item.getType.toNat] ++
    if item.size = 0 then []
    else if item.hasLength then
      [toLE 4 (UInt32.ofNat item.size).toNat, item.content.take (UInt32.ofNat item.size).toNat]
    else [item.content]

/-- The pieces of an array. -/
def writes (a : DTXPrimitiveArray) : List Bytes :=
  toLE 8 a.capacityField.toNat :: toLE 8 a.sizeField.toNat :: a.items.flatMap (itemWrites a.asDict)

theorem serializeItem_eq {τ : Type} (asDict : Bool) (serializer : Serializer τ) (s : τ)
    (item : DTXPrimitiveValue) :
    serializeItem asDict serializer s item = Callback.calls serializer s (itemWrites asDict item) := by
  unfold serializeItem itemWrites
  by_cases hnull : item.getType = 0
  · simp only [hnull, if_true]
    rfl
  by_cases hsize : item.size = 0 <;> by_cases hlength : item.hasLength <;> cases asDict <;>
    simp [hnull, hsize, hlength]

theorem serializeItems_eq {τ : Type} (asDict : Bool) (serializer : Serializer τ) (s : τ)
    (items : List DTXPrimitiveValue) :
    serializeItems asDict serializer s items =
      Callback.calls serializer s (items.flatMap (itemWrites asDict)) := by
  induction items generalizing s with
  | nil => rfl
  | cons item items ih =>
      simp only [serializeItems, serializeItem_eq, List.flatMap_cons, Callback.calls_append, ih]

/-- **`SerializeTo` makes the calls `writes`**, whatever the serializer returns. -/
theorem serializeTo_eq {τ : Type} (a : DTXPrimitiveArray) (serializer : Serializer τ) (s : τ) :
    a.serializeTo serializer s =
      Callback.calls serializer s a.writes >>= fun s => pure (true, s) := by
  simp only [serializeTo, writes, Callback.calls_cons, serializeItems_eq, bind_assoc]

end DTXPrimitiveArray
end IDevice
