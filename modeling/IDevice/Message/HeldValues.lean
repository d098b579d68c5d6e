import IDevice.Message.Held

/-!
# `Message.HeldValues` — values and arrays on the heap

An object that `Holds` a value has the value's block. Constructors allocate it, moves take it along, and the
destructor frees it where it is now: what was moved from still has the pointer, but not the type.
-/

namespace IDevice

open LittleEndian HeapProgram Heap

/-- An object that is this value, and its block. -/
inductive PrimitiveObject.Holds : PrimitiveObject → DTXPrimitiveValue → List (Nat × Bytes) → Prop where
  | null (d : PrimitiveData) : Holds ⟨d, 0, .kNull⟩ .null []
  | string (b : Nat) (str : Bytes) : Holds ⟨.b b, str.length, .kString⟩ (.string str) [(b, str ++ [0])]
  | buffer (b : Nat) (bytes : Bytes) : Holds ⟨.b b, bytes.length, .kBuffer⟩ (.buffer bytes) [(b, bytes)]
  | signedInt32 (i : Int32) : Holds ⟨.i32 i, 4, .kSignedInt32⟩ (.signedInt32 i) []
  | signedInt64 (i : Int64) : Holds ⟨.i64 i, 8, .kSignedInt64⟩ (.signedInt64 i) []
  | float32 (bits : UInt32) : Holds ⟨.f bits, 4, .kFloat32⟩ (.float32 bits) []
  | float64 (bits : UInt64) : Holds ⟨.d bits, 8, .kFloat64⟩ (.float64 bits) []
  | integer (u : UInt64) : Holds ⟨.u u, 8, .kInteger⟩ (.integer u) []
  | emptyKey (d : PrimitiveData) : Holds ⟨d, 0, .kEmptyKey⟩ .emptyKey []

namespace PrimitiveObject

variable {o : PrimitiveObject} {v : DTXPrimitiveValue} {b : List (Nat × Bytes)}

theorem Holds.blocks (h : o.Holds v b) : v.blocks = b.map Prod.snd := by
  cases h <;> rfl

theorem construct_implements (v : DTXPrimitiveValue) :
    Implements [] (construct v) (pure v) Holds := by
  have hmalloc (bytes : Bytes) (make : Nat → PrimitiveObject) (hmake : ∀ b, (make b).Holds v [(b, bytes)]) :
      Implements [] (malloc bytes >>= fun b => pure (make b) : MessageProgram _) (pure v) Holds := by
    refine Implements.bind_pure (implements_malloc bytes) (.refl []) ?_
    rintro b blocks rfl
    exact implements_pure (hmake b)
  cases v with
  | string str => exact hmalloc (str ++ [0]) (fun b => ⟨.b b, str.length, .kString⟩) fun b => .string b str
  | buffer bytes => exact hmalloc bytes (fun b => ⟨.b b, bytes.length, .kBuffer⟩) fun b => .buffer b bytes
  | null => exact implements_pure (.null .unset)
  | signedInt32 i => exact implements_pure (.signedInt32 i)
  | signedInt64 i => exact implements_pure (.signedInt64 i)
  | float32 bits => exact implements_pure (.float32 bits)
  | float64 bits => exact implements_pure (.float64 bits)
  | integer u => exact implements_pure (.integer u)
  | emptyKey => exact implements_pure (.emptyKey .unset)

/-- The value is where it was moved to. -/
theorem Holds.moveValue (h : o.Holds v b) (this : PrimitiveObject) : (this.moveValue o).Holds v b := by
  cases h with
  | null d => exact .null this.d
  | string b str => exact .string b str
  | buffer b bytes => exact .buffer b bytes
  | signedInt32 i => exact .signedInt32 i
  | signedInt64 i => exact .signedInt64 i
  | float32 bits => exact .float32 bits
  | float64 bits => exact .float64 bits
  | integer u => exact .integer u
  | emptyKey d => exact .emptyKey this.d

/-- What it was moved from frees nothing, though the pointer is in it. -/
theorem destroy_movedFrom (o : PrimitiveObject) : o.movedFrom.destroy = pure () := rfl

theorem Holds.destroy (h : o.Holds v b) : Implements b o.destroy (pure ()) fun _ _ blocks => blocks = [] := by
  cases h with
  | string b str => exact implements_free b _
  | buffer b bytes => exact implements_free b _
  | _ => exact implements_pure rfl

theorem destroyAll_implements {os : List PrimitiveObject} {vs : List DTXPrimitiveValue} (h : Each Holds os vs b) :
    Implements b (destroyAll os) (pure ()) fun _ _ blocks => blocks = [] := by
  induction h with
  | nil => exact implements_pure rfl
  | cons head _ ih =>
      refine Implements.bind_pure head.destroy (.refl _) ?_
      rintro _ blocks rfl
      exact ih

/-- **The elements of a vector are moved** and not freed. -/
theorem relocate_implements {os : List PrimitiveObject} {vs : List DTXPrimitiveValue} (h : Each Holds os vs b) :
    Implements b (relocate os) (pure vs) (Each Holds) := by
  induction h with
  | nil => exact implements_pure .nil
  | @cons o v os vs b bs head _ ih =>
      have hrelocate : relocate (o :: os) = relocate os >>= fun news => pure (moveValue {} o :: news) := by
        show (o.movedFrom.destroy >>= fun _ => relocate os >>= fun news => pure (moveValue {} o :: news)) = _
        rw [destroy_movedFrom]
        rfl
      rw [hrelocate]
      refine Implements.bind_pure ih List.perm_append_comm ?_
      intro news blocks hnews
      refine Implements.perm (implements_pure (.cons (head.moveValue {}) hnews)) List.perm_append_comm

end PrimitiveObject

/-! ## Arrays -/

/-- An array object is this array. -/
structure ArrayObject.Holds (a : ArrayObject) (d : DTXPrimitiveArray) (b : List (Nat × Bytes)) : Prop where
  asDict : a.asDict = d.asDict
  items : Each PrimitiveObject.Holds a.items d.items b

namespace ArrayObject

variable {grows : Nat → Bool} {a : ArrayObject} {d : DTXPrimitiveArray} {b : List (Nat × Bytes)}

theorem makeRoom_implements {os : List PrimitiveObject} {vs : List DTXPrimitiveValue}
    (h : Each PrimitiveObject.Holds os vs b) :
    Implements b (makeRoom grows os) (pure vs) (Each PrimitiveObject.Holds) := by
  unfold makeRoom
  split
  · exact PrimitiveObject.relocate_implements h
  · exact implements_pure h

theorem append_implements (h : a.Holds d b) (v : DTXPrimitiveValue) :
    Implements b (a.append grows v) (pure (d.append v)) Holds := by
  refine Implements.bind_pure (PrimitiveObject.construct_implements v) (.refl b) ?_
  intro temporary own htemporary
  refine Implements.bind_pure (makeRoom_implements h.items) List.perm_append_comm ?_
  intro items blocks hitems
  exact implements_pure ⟨h.asDict, hitems.append (each_singleton (htemporary.moveValue {}))⟩

theorem appendAll_implements (h : a.Holds d b) (vs : List DTXPrimitiveValue) :
    Implements b (a.appendAll grows vs) (pure { d with items := d.items ++ vs }) Holds := by
  induction vs generalizing a d b with
  | nil =>
      rw [List.append_nil]
      exact implements_pure h
  | cons v vs ih =>
      refine Implements.bind_pure_all (append_implements h v) ?_
      intro a' blocks ha'
      have hrest := ih ha'
      rw [DTXPrimitiveArray.append, List.append_assoc, List.singleton_append] at hrest
      exact hrest

/-! ### Serialization -/

theorem itemLength_eq {o : PrimitiveObject} {v : DTXPrimitiveValue} (h : o.Holds v b) (asDict : Bool) :
    itemLength asDict o = DTXPrimitiveArray.itemLength asDict v := by
  cases h <;> rfl

theorem Holds.serializedLength (h : a.Holds d b) : a.serializedLength = d.serializedLength := by
  have hsum : a.items.map (itemLength a.asDict) = d.items.map (DTXPrimitiveArray.itemLength d.asDict) := by
    rw [h.asDict]
    exact h.items.map_eq fun o v b hv => itemLength_eq hv d.asDict
  have hnil : a.items ≠ [] ↔ d.items ≠ [] := by
    rw [← List.length_pos_iff, ← List.length_pos_iff, h.items.length_eq]
  unfold ArrayObject.serializedLength DTXPrimitiveArray.serializedLength
  rw [hsum]
  simp only [hnil]

theorem readBuffer_implements (b : Nat) {content : Bytes} {n : Nat} (hn : n ≤ content.length) (s : Nat)
    (t : PrimitiveType) : Implements [(b, content)] (PrimitiveObject.readBuffer ⟨.b b, s, t⟩ n)
      (pure (content.take n) : MessageLedger Bytes) (Keeps [(b, content)]) := by
  refine Implements.bind_pure (implements_read b content) (.refl _) ?_
  rintro _ blocks ⟨rfl, rfl⟩
  rw [if_neg (Nat.not_lt.mpr hn)]
  exact implements_pure ⟨rfl, rfl⟩

theorem toNat_ofNat_le (n : Nat) : (UInt32.ofNat n).toNat ≤ n := by
  rw [UInt32.toNat_ofNat']
  exact Nat.mod_le _ _

/-- **An item** is written as its value is, and stays. -/
theorem serializeItem_implements {o : PrimitiveObject} {v : DTXPrimitiveValue} (h : o.Holds v b) (asDict : Bool) :
    Implements b (serializeItem asDict o) (pure (DTXPrimitiveArray.itemWrites asDict v)) (Keeps b) := by
  cases h with
  | null d => exact implements_pure ⟨rfl, rfl⟩
  | emptyKey d => exact implements_pure ⟨(List.append_nil _).symm, rfl⟩
  | string b str =>
      cases str with
      | nil => exact implements_pure ⟨(List.append_nil _).symm, rfl⟩
      | cons c str =>
          -- the bytes in front of the zero
          have hlength : (UInt32.ofNat (c :: str).length).toNat ≤ (c :: str ++ [0]).length := by
            rw [List.length_append]
            exact Nat.le_trans (toNat_ofNat_le _) (Nat.le_add_right _ _)
          have htake : (c :: str ++ [0]).take (UInt32.ofNat (c :: str).length).toNat =
              (c :: str).take (UInt32.ofNat (c :: str).length).toNat :=
            List.take_append_of_le_length (toNat_ofNat_le (c :: str).length)
          refine Implements.bind_pure (readBuffer_implements b hlength (c :: str).length .kString) (.refl _) ?_
          rintro _ blocks ⟨rfl, rfl⟩
          rw [htake]
          exact implements_pure ⟨rfl, rfl⟩
  | buffer b bytes =>
      cases bytes with
      | nil => exact implements_pure ⟨(List.append_nil _).symm, rfl⟩
      | cons c bytes =>
          have hlength := toNat_ofNat_le (c :: bytes).length
          refine Implements.bind_pure (readBuffer_implements b hlength (c :: bytes).length .kBuffer) (.refl _) ?_
          rintro _ blocks ⟨rfl, rfl⟩
          exact implements_pure ⟨rfl, rfl⟩
  | signedInt32 i => exact implements_pure ⟨rfl, rfl⟩
  | signedInt64 i => exact implements_pure ⟨rfl, rfl⟩
  | float32 bits => exact implements_pure ⟨rfl, rfl⟩
  | float64 bits => exact implements_pure ⟨rfl, rfl⟩
  | integer u => exact implements_pure ⟨rfl, rfl⟩

theorem serializeItems_implements {os : List PrimitiveObject} {vs : List DTXPrimitiveValue}
    (h : Each PrimitiveObject.Holds os vs b) (asDict : Bool) :
    Implements b (serializeItems asDict os) (pure (vs.flatMap (DTXPrimitiveArray.itemWrites asDict))) (Keeps b) := by
  induction h with
  | nil => exact implements_pure ⟨rfl, rfl⟩
  | @cons o v os vs b bs head _ ih =>
      refine Implements.bind_pure_all ((serializeItem_implements head asDict).keep (.refl (b ++ bs))) ?_
      rintro _ _ ⟨rfl, rfl⟩
      refine Implements.bind_pure_all (ih.keep List.perm_append_comm) ?_
      rintro _ _ ⟨rfl, rfl⟩
      exact implements_pure ⟨rfl, rfl⟩

theorem serializeTo_implements (h : a.Holds d b) :
    Implements b a.serializeTo (pure d.writes) (Keeps b) := by
  refine Implements.bind_pure_all (serializeItems_implements h.items a.asDict) ?_
  rintro _ blocks ⟨rfl, rfl⟩
  rw [h.serializedLength, h.asDict]
  exact implements_pure ⟨rfl, rfl⟩

end ArrayObject

end IDevice
