import RustCommon.Buffer.AtomicBuffer

/-!
# buffer の数の field

`AtomicByteBufferInt` の六つの型の accessor を一つの族 `NumKind` にまとめ、
どれも `[p, p + 幅)` の byte を big-endian で読み書きする field として振る舞うことを示す。
その上で、`u32` と `i32` の volatile な accessor が普通の accessor とどこで違うかを言う。
-/

namespace RustCommon.Buffer

open AtomicByteBufferInt

/-- `DirectByteBuffer` の数の accessor の型。 -/
inductive NumKind
  | u16
  | i16
  | u32
  | i32
  | u64
  | i64
deriving DecidableEq, Repr

namespace NumKind

/-- その型の値。符号付きは同じ幅の `BitVec`。 -/
def Val : NumKind → Type
  | .u16 => UInt16
  | .i16 => BitVec 16
  | .u32 => UInt32
  | .i32 => BitVec 32
  | .u64 => UInt64
  | .i64 => BitVec 64

/-- その型の幅と bit 列。 -/
def intType : (k : NumKind) → IntType k.Val
  | .u16 => Buffer.u16
  | .i16 => Buffer.i16
  | .u32 => Buffer.u32
  | .i32 => Buffer.i32
  | .u64 => Buffer.u64
  | .i64 => Buffer.i64

/-- byte 幅。 -/
def width (k : NumKind) : Nat := k.intType.width

/-- `get_u16` から `get_i64` まで。 -/
def get : (k : NumKind) → AtomicByteBufferInt → Nat → Option k.Val
  | .u16 => getU16
  | .i16 => getI16
  | .u32 => getU32
  | .i32 => getI32
  | .u64 => getU64
  | .i64 => getI64

/-- `put_u16` から `put_i64` まで。 -/
def put : (k : NumKind) → AtomicByteBufferInt → Nat → k.Val → Option AtomicByteBufferInt
  | .u16 => putU16
  | .i16 => putI16
  | .u32 => putU32
  | .i32 => putI32
  | .u64 => putU64
  | .i64 => putI64

/-- どの get も、slice を幅ちょうどに切る `getNum` である。 -/
theorem get_eq (k : NumKind) (b : AtomicByteBufferInt) (p : Nat) :
    k.get b p = getNum k.intType b p (p + k.width) := by
  cases k <;> rfl

theorem put_eq (k : NumKind) (b : AtomicByteBufferInt) (p : Nat) (v : k.Val) :
    k.put b p v = putNum k.intType b p (p + k.width) v := by
  cases k <;> rfl

theorem get_eq_ite (k : NumKind) (b : AtomicByteBufferInt) (p : Nat) :
    k.get b p =
      if p + k.width ≤ b.capacity then some (k.intType.decode (bytesAt b.buffer p k.width)) else none := by
  rw [get_eq, width, getNum_eq _ _ (Nat.le_refl _)]

/-- get は `capacity` と、読む範囲の byte だけを見る。 -/
theorem get_congr (k : NumKind) {b b' : AtomicByteBufferInt} {p : Nat} (hc : b'.capacity = b.capacity)
    (hb : bytesAt b'.buffer p k.width = bytesAt b.buffer p k.width) : k.get b' p = k.get b p := by
  rw [get_eq_ite, get_eq_ite, hc, hb]

theorem put_of_le (k : NumKind) (b : AtomicByteBufferInt) {p : Nat} (v : k.Val)
    (hp : p + k.width ≤ b.capacity) :
    ∃ b', k.put b p v = some b' ∧ b'.capacity = b.capacity ∧
      b'.buffer = writeAt b.buffer p (k.intType.encode v) := by
  rw [put_eq]; exact putNum_of_le _ _ v (Nat.le_refl _) hp

theorem put_of_gt (k : NumKind) (b : AtomicByteBufferInt) {p : Nat} (v : k.Val)
    (hp : b.capacity < p + k.width) : k.put b p v = none := by
  rw [put_eq]; exact putNum_of_lt _ _ v hp

/-- put が値を返すのは範囲が buffer に収まるときで、そのとき `[p, p + 幅)` だけが値の表現に替わる。 -/
theorem put_some (k : NumKind) {b b' : AtomicByteBufferInt} {p : Nat} {v : k.Val}
    (h : k.put b p v = some b') :
    p + k.width ≤ b.capacity ∧ b'.capacity = b.capacity ∧
      b'.buffer = writeAt b.buffer p (k.intType.encode v) := by
  by_cases hp : p + k.width ≤ b.capacity
  · obtain ⟨b'', h'', hc, hb⟩ := k.put_of_le b v hp
    cases h.symm.trans h''
    exact ⟨hp, hc, hb⟩
  · rw [k.put_of_gt b v (Nat.lt_of_not_le hp)] at h
    cases h

/-- get は範囲内の byte だけを見る。 -/
theorem get_congr_of_getElem? (k : NumKind) {b b' : AtomicByteBufferInt} {p : Nat}
    (hc : b'.capacity = b.capacity) (hb : ∀ i, p ≤ i → i < p + k.width → b'.buffer[i]? = b.buffer[i]?) :
    k.get b' p = k.get b p :=
  k.get_congr hc <| List.ext_getElem? fun j => by
    rw [getElem?_bytesAt, getElem?_bytesAt]
    split
    · exact hb _ (Nat.le_add_right _ _) (by omega)
    · rfl

/-- put の後、同じ位置の get は書いた値を返す。 -/
theorem get_put_self (k : NumKind) {b b' : AtomicByteBufferInt} {p : Nat} {v : k.Val}
    (h : k.put b p v = some b') : k.get b' p = some v := by
  obtain ⟨hp, hc, hb⟩ := k.put_some h
  have hw : p + (k.intType.encode v).length ≤ b.buffer.length := by simpa [b.buffer_length] using hp
  rw [get_eq_ite, hc, if_pos hp, hb]
  simpa using congrArg (some ∘ k.intType.decode) (bytesAt_writeAt_self hw)

/-- put は範囲の外の byte を変えない。 -/
theorem getElem?_put (k : NumKind) {b b' : AtomicByteBufferInt} {p : Nat} {v : k.Val}
    (h : k.put b p v = some b') {i : Nat} (hi : ¬(p ≤ i ∧ i < p + k.width)) : b'.buffer[i]? = b.buffer[i]? := by
  obtain ⟨hp, -, hb⟩ := k.put_some h
  have hw : p + (k.intType.encode v).length ≤ b.buffer.length := by simpa [b.buffer_length] using hp
  rw [hb, getElem?_writeAt hw, if_neg (by simpa [width] using hi)]

end NumKind

/-! ## 数の field -/

theorem writeBytes_of_le (b : AtomicByteBufferInt) {p : Nat} (bs : List UInt8)
    (hp : p + bs.length ≤ b.capacity) :
    ∃ b', b.writeBytes p bs = some b' ∧ b'.capacity = b.capacity ∧ b'.buffer = writeAt b.buffer p bs := by
  apply update_of_some
  have hs : slice b.buffer p (p + bs.length) = some (bytesAt b.buffer p bs.length) := by
    rw [slice_eq _ (Nat.le_add_right _ _), b.buffer_length, if_pos hp, Nat.add_sub_cancel_left]
  have hlen : (bytesAt b.buffer p bs.length).length = bs.length := by
    simp [bytesAt, b.buffer_length]; omega
  simp [modifySlice, hs, copyZip, hlen, writeAt]

theorem setBytes_of_le (b : AtomicByteBufferInt) {p len : Nat} (x : UInt8) (hp : p + len ≤ b.capacity) :
    ∃ b', b.setBytes p len x = some b' ∧ b'.capacity = b.capacity ∧
      b'.buffer = writeAt b.buffer p (List.replicate len x) := by
  apply update_of_some
  have hs : slice b.buffer p (p + len) = some (bytesAt b.buffer p len) := by
    rw [slice_eq _ (Nat.le_add_right _ _), b.buffer_length, if_pos hp, Nat.add_sub_cancel_left]
  have hlen : (bytesAt b.buffer p len).length = len := by
    simp [bytesAt, b.buffer_length]; omega
  simp [modifySlice, hs, hlen, writeAt]

theorem getBytes_of_le (b : AtomicByteBufferInt) {p n : Nat} (hp : p + n ≤ b.capacity) :
    b.getBytes p n = some (bytesAt b.buffer p n) := by
  rw [getBytes, slice_eq _ (Nat.le_add_right _ _), b.buffer_length, if_pos hp, Nat.add_sub_cancel_left]

theorem getBytes_of_gt (b : AtomicByteBufferInt) {p n : Nat} (hp : b.capacity < p + n) :
    b.getBytes p n = none := by
  simp [getBytes, slice, b.buffer_length]; omega

theorem setBytes_of_gt (b : AtomicByteBufferInt) {p len : Nat} (x : UInt8) (hp : b.capacity < p + len) :
    b.setBytes p len x = none :=
  update_of_none (by simp [modifySlice, slice, b.buffer_length]; omega)

theorem writeBytes_of_gt (b : AtomicByteBufferInt) {p : Nat} (bs : List UInt8)
    (hp : b.capacity < p + bs.length) : b.writeBytes p bs = none :=
  update_of_none (by simp [modifySlice, slice, b.buffer_length]; omega)

/--
**数の accessor は big-endian の field、`write_bytes` と `set_bytes` は範囲の書き換えである。**
六つの型のどれでも、範囲内の get は `[p, p + 幅)` の byte を big-endian の表現に持つ値を返し、
put は `[p, p + 幅)` だけを値の表現に置き換える。だから put の後の get は書いた値を返し、
重ならない範囲の get は put の前と同じものを返す。
-/
theorem atomicBuffer_fields_big_endian :
    (∀ (k : NumKind) (b : AtomicByteBufferInt) (p : Nat), p + k.width ≤ b.capacity →
      (∃ v', k.get b p = some v' ∧ k.intType.encode v' = bytesAt b.buffer p k.width) ∧
      ∀ v : k.Val, ∃ b', k.put b p v = some b' ∧ b'.capacity = b.capacity ∧
        (∀ i, b'.buffer[i]? =
          if p ≤ i ∧ i < p + k.width then (k.intType.encode v)[i - p]? else b.buffer[i]?) ∧
        k.get b' p = some v ∧
        ∀ (k' : NumKind) (q : Nat), q + k'.width ≤ p ∨ p + k.width ≤ q → k'.get b' q = k'.get b q) ∧
    (∀ (b : AtomicByteBufferInt) (p : Nat) (bs : List UInt8), p + bs.length ≤ b.capacity →
      ∃ b', b.writeBytes p bs = some b' ∧ b'.capacity = b.capacity ∧
        (∀ i, b'.buffer[i]? = if p ≤ i ∧ i < p + bs.length then bs[i - p]? else b.buffer[i]?) ∧
        b'.getBytes p bs.length = some bs) ∧
    (∀ (b : AtomicByteBufferInt) (p len : Nat) (x : UInt8), p + len ≤ b.capacity →
      ∃ b', b.setBytes p len x = some b' ∧ b'.capacity = b.capacity ∧
        ∀ i, b'.buffer[i]? = if p ≤ i ∧ i < p + len then some x else b.buffer[i]?) := by
  refine ⟨fun k b p hp => ⟨?_, fun v => ?_⟩, fun b p bs hp => ?_, fun b p len x hp => ?_⟩
  · have hlen : (bytesAt b.buffer p k.width).length = k.intType.width := by
      have : p + k.intType.width ≤ b.capacity := hp
      simp [bytesAt, b.buffer_length, NumKind.width]; omega
    exact ⟨_, by rw [NumKind.get_eq_ite, if_pos hp], k.intType.encode_decode hlen⟩
  · obtain ⟨b', hput, hc, hbuf⟩ := k.put_of_le b v hp
    have hw : p + (k.intType.encode v).length ≤ b.buffer.length := by
      simpa [b.buffer_length] using hp
    refine ⟨b', hput, hc, fun i => by simpa [hbuf] using getElem?_writeAt hw i, ?_, fun k' q hq => ?_⟩
    · rw [NumKind.get_eq_ite, hc, if_pos hp, hbuf]
      simpa using congrArg (some ∘ k.intType.decode) (bytesAt_writeAt_self hw)
    · exact k'.get_congr hc (by rw [hbuf]; exact bytesAt_writeAt_of_disjoint hw (by simpa using hq))
  · obtain ⟨b', hw, hc, hbuf⟩ := writeBytes_of_le b bs hp
    have hl : p + bs.length ≤ b.buffer.length := b.buffer_length ▸ hp
    refine ⟨b', hw, hc, fun i => hbuf ▸ getElem?_writeAt hl i, ?_⟩
    rw [getBytes_of_le b' (hc ▸ hp), hbuf, bytesAt_writeAt_self hl]
  · obtain ⟨b', hs, hc, hbuf⟩ := setBytes_of_le b x hp
    have hl : p + (List.replicate len x).length ≤ b.buffer.length := by simpa [b.buffer_length] using hp
    refine ⟨b', hs, hc, fun i => ?_⟩
    rw [hbuf, getElem?_writeAt hl]
    simp only [List.length_replicate, List.getElem?_replicate]
    split <;> simp_all; omega

/-! ## volatile な accessor

`u32` と `i32` の volatile な accessor は `calculate_offset_long` で 8 byte の slice を切る。
`byteorder` はその先頭 4 byte だけを読み書きするので、slice が buffer に収まる限り
普通の accessor と同じだが、buffer の終わりの 8 byte 未満のところでは panic する。
-/

/--
**volatile な accessor と普通の accessor の関係。**
`u64` と `i64` では同じ slice を読み書きする。`u32` と `i32` では、8 byte の slice が buffer に
収まるときだけ普通の accessor と同じ値を返して同じ buffer を残し、収まらなければ panic する。
-/
theorem volatile_accessors_eq_plain (b : AtomicByteBufferInt) (p : Nat) :
    b.getU64Volatile p = b.getU64 p ∧ (∀ v, b.putU64Volatile p v = b.putU64 p v) ∧
      b.getI64Volatile p = b.getI64 p ∧ (∀ v, b.putI64Volatile p v = b.putI64 p v) ∧
      b.getU32Volatile p = (if p + LONG_SIZE ≤ b.capacity then b.getU32 p else none) ∧
      (∀ v, b.putU32Volatile p v = if p + LONG_SIZE ≤ b.capacity then b.putU32 p v else none) ∧
      b.getI32Volatile p = (if p + LONG_SIZE ≤ b.capacity then b.getI32 p else none) ∧
      (∀ v, b.putI32Volatile p v = if p + LONG_SIZE ≤ b.capacity then b.putI32 p v else none) :=
  ⟨rfl, fun _ => rfl, rfl, fun _ => rfl,
    getNum_stop u32 b (Nat.le_refl _) (calculateOffset32_le_long p),
    fun v => putNum_stop u32 b v (Nat.le_refl _) (calculateOffset32_le_long p),
    getNum_stop i32 b (Nat.le_refl _) (calculateOffset32_le_long p),
    fun v => putNum_stop i32 b v (Nat.le_refl _) (calculateOffset32_le_long p)⟩

/-- `new(4)` の buffer の位置 0 では、普通の `u32` と `i32` の accessor は読み書きできるが、
volatile な accessor はどれも panic する。 -/
theorem volatile_int_accessors_panic_at_end :
    (AtomicByteBufferInt.new 4).getU32 0 = some 0 ∧ (AtomicByteBufferInt.new 4).getU32Volatile 0 = none ∧
      (AtomicByteBufferInt.new 4).getI32 0 = some 0 ∧ (AtomicByteBufferInt.new 4).getI32Volatile 0 = none ∧
      ((AtomicByteBufferInt.new 4).putU32 0 7).isSome ∧
      (AtomicByteBufferInt.new 4).putU32Volatile 0 7 = none ∧
      ((AtomicByteBufferInt.new 4).putI32 0 7).isSome ∧
      (AtomicByteBufferInt.new 4).putI32Volatile 0 7 = none :=
  ⟨rfl, rfl, rfl, rfl, rfl, rfl, rfl, rfl⟩

end RustCommon.Buffer
