import Mathlib.Algebra.Group.Nat.Basic
import Mathlib.Data.List.Basic
import RustCommon.Basic

/-!
# `AtomicByteBufferInt`

`atomic_buffer.rs` の byte buffer を、長さ `capacity` の byte 列として書く。

* 数の読み書きは crate `byteorder` の `BigEndian::read_*` / `write_*` による。
  これは slice の先頭の、型の幅だけの byte を big-endian で読み書きし、slice が短ければ panic する。
* `&self.buffer[a..b]` は `a ≤ b ≤ capacity` でなければ panic する。
* panic は `none` で表す。
* `fence` は値を変えないので書かない。
* 符号付きの `i16`、`i32`、`i64` は同じ幅の `BitVec` で持つ（2 の補数）。
-/

namespace RustCommon.Buffer

/-! ## big-endian の byte 列 -/

/-- `x` の下位 `n` byte を、上位の byte から並べる。 -/
def toBytesBE : Nat → Nat → List UInt8
  | 0, _ => []
  | n + 1, x => toBytesBE n (x / 256) ++ [UInt8.ofNat (x % 256)]

/-- big-endian の byte 列が表す数。 -/
def fromBytesBE (bs : List UInt8) : Nat := bs.foldl (fun acc b => acc * 256 + b.toNat) 0

@[simp] theorem length_toBytesBE (n x : Nat) : (toBytesBE n x).length = n := by
  induction n generalizing x <;> simp [toBytesBE, *]

theorem fromBytesBE_append_singleton (bs : List UInt8) (b : UInt8) :
    fromBytesBE (bs ++ [b]) = fromBytesBE bs * 256 + b.toNat := by
  simp [fromBytesBE]

theorem fromBytesBE_toBytesBE (n x : Nat) : fromBytesBE (toBytesBE n x) = x % 256 ^ n := by
  induction n generalizing x with
  | zero => simp [toBytesBE, fromBytesBE, Nat.mod_one]
  | succ n ih =>
    rw [toBytesBE, fromBytesBE_append_singleton, ih, Nat.pow_succ', Nat.mod_mul,
      UInt8.toNat_ofNat_of_lt (Nat.mod_lt x (by decide)), UInt8.size]
    omega

theorem fromBytesBE_lt (bs : List UInt8) : fromBytesBE bs < 256 ^ bs.length := by
  induction bs using List.reverseRecOn with
  | nil => simp [fromBytesBE]
  | append_singleton bs b ih =>
    rw [fromBytesBE_append_singleton, List.length_append, List.length_singleton, Nat.pow_succ]
    have := b.toNat_lt_size
    simp only [UInt8.size] at this
    omega

theorem toBytesBE_fromBytesBE (bs : List UInt8) : toBytesBE bs.length (fromBytesBE bs) = bs := by
  induction bs using List.reverseRecOn with
  | nil => rfl
  | append_singleton bs b ih =>
    have hb := b.toNat_lt_size
    simp only [UInt8.size] at hb
    rw [List.length_append, List.length_singleton, toBytesBE, fromBytesBE_append_singleton]
    have h1 : (fromBytesBE bs * 256 + b.toNat) / 256 = fromBytesBE bs := by omega
    have h2 : (fromBytesBE bs * 256 + b.toNat) % 256 = b.toNat := by omega
    rw [h1, h2, ih, UInt8.toNat.inj (UInt8.toNat_ofNat_of_lt hb)]

/-! ## 固定幅の整数型 -/

/-- `byteorder` が読み書きする固定幅の整数型：幅（byte 数）と、符号なしの bit 列との変換。 -/
structure IntType (T : Type) where
  width : Nat
  toBits : T → Nat
  ofBits : Nat → T
  toBits_lt : ∀ v, toBits v < 256 ^ width
  ofBits_toBits : ∀ v, ofBits (toBits v) = v
  toBits_ofBits : ∀ n, n < 256 ^ width → toBits (ofBits n) = n

namespace IntType

variable {T : Type} (t : IntType T)

/-- `v` の big-endian の `t.width` byte（符号付きなら 2 の補数）。 -/
def encode (v : T) : List UInt8 := toBytesBE t.width (t.toBits v)

/-- big-endian の byte 列が表す値。 -/
def decode (bs : List UInt8) : T := t.ofBits (fromBytesBE bs)

@[simp] theorem length_encode (v : T) : (t.encode v).length = t.width := length_toBytesBE _ _

@[simp] theorem decode_encode (v : T) : t.decode (t.encode v) = v := by
  rw [decode, encode, fromBytesBE_toBytesBE, Nat.mod_eq_of_lt (t.toBits_lt v), t.ofBits_toBits]

theorem encode_decode {bs : List UInt8} (h : bs.length = t.width) : t.encode (t.decode bs) = bs := by
  rw [encode, decode, t.toBits_ofBits _ (h ▸ fromBytesBE_lt bs), ← h, toBytesBE_fromBytesBE]

end IntType

/-- `u16`。 -/
def u16 : IntType UInt16 :=
  ⟨2, UInt16.toNat, UInt16.ofNat, UInt16.toNat_lt_size,
    fun v => UInt16.toNat.inj (UInt16.toNat_ofNat_of_lt v.toNat_lt_size),
    fun _ h => UInt16.toNat_ofNat_of_lt h⟩

/-- `i16`。 -/
def i16 : IntType (BitVec 16) :=
  ⟨2, BitVec.toNat, BitVec.ofNat 16, BitVec.isLt, fun v => by simp,
    fun _ h => Nat.mod_eq_of_lt h⟩

/-- `u32`。 -/
def u32 : IntType UInt32 :=
  ⟨4, UInt32.toNat, UInt32.ofNat, UInt32.toNat_lt_size,
    fun v => UInt32.toNat.inj (UInt32.toNat_ofNat_of_lt v.toNat_lt_size),
    fun _ h => UInt32.toNat_ofNat_of_lt h⟩

/-- `i32`。 -/
def i32 : IntType (BitVec 32) :=
  ⟨4, BitVec.toNat, BitVec.ofNat 32, BitVec.isLt, fun v => by simp,
    fun _ h => Nat.mod_eq_of_lt h⟩

/-- `u64`。 -/
def u64 : IntType UInt64 :=
  ⟨8, UInt64.toNat, UInt64.ofNat, UInt64.toNat_lt_size,
    fun v => UInt64.toNat.inj (UInt64.toNat_ofNat_of_lt v.toNat_lt_size),
    fun _ h => UInt64.toNat_ofNat_of_lt h⟩

/-- `i64`。 -/
def i64 : IntType (BitVec 64) :=
  ⟨8, BitVec.toNat, BitVec.ofNat 64, BitVec.isLt, fun v => by simp,
    fun _ h => Nat.mod_eq_of_lt h⟩

/-! ## slice と `byteorder` -/

/-- `&buf[start..stop]`：`start ≤ stop ≤ buf.len()` でなければ panic。 -/
def slice (buf : List UInt8) (start stop : Nat) : Option (List UInt8) :=
  if start ≤ stop ∧ stop ≤ buf.length then some ((buf.drop start).take (stop - start)) else none

/-- `&mut buf[start..stop]` を `f` で書き換えた後の `buf`。 -/
def modifySlice (buf : List UInt8) (start stop : Nat) (f : List UInt8 → Option (List UInt8)) :
    Option (List UInt8) :=
  (slice buf start stop).bind fun s => (f s).map fun s' => buf.take start ++ s' ++ buf.drop stop

/-- `BigEndian::read_*`：`src` の先頭 `t.width` byte を読む。`src` が短ければ panic。 -/
def readBE {T : Type} (t : IntType T) (src : List UInt8) : Option T :=
  if t.width ≤ src.length then some (t.decode (src.take t.width)) else none

/-- `BigEndian::write_*`：`dst` の先頭 `t.width` byte に書く。`dst` が短ければ panic。 -/
def writeBE {T : Type} (t : IntType T) (dst : List UInt8) (v : T) : Option (List UInt8) :=
  if t.width ≤ dst.length then some (t.encode v ++ dst.drop t.width) else none

/-- `for (d, s) in dst.iter_mut().zip(src.iter()) { *d = *s }`：短い方の長さだけ写す。 -/
def copyZip (dst src : List UInt8) : List UInt8 := src.take dst.length ++ dst.drop src.length

theorem slice_length {buf s : List UInt8} {start stop : Nat} (h : slice buf start stop = some s) :
    s.length = stop - start := by
  unfold slice at h
  split at h
  · cases h; simp; omega
  · cases h

/-- 長さを変えない書き換えなら、`modifySlice` も長さを変えない。 -/
theorem modifySlice_length {f : List UInt8 → Option (List UInt8)}
    (hf : ∀ s s', f s = some s' → s'.length = s.length) {buf buf' : List UInt8} {start stop : Nat}
    (h : modifySlice buf start stop f = some buf') : buf'.length = buf.length := by
  obtain ⟨s, hs, s', hs', rfl⟩ : ∃ s, slice buf start stop = some s ∧
      ∃ s', f s = some s' ∧ buf.take start ++ s' ++ buf.drop stop = buf' := by
    simpa [modifySlice, Option.bind_eq_some, Option.map_eq_some'] using h
  have hlen := slice_length hs
  have hr : start ≤ stop ∧ stop ≤ buf.length := by
    unfold slice at hs; split at hs <;> simp_all
  simp [hf _ _ hs', hlen]; omega

theorem writeBE_length {T : Type} (t : IntType T) (v : T) {dst dst' : List UInt8}
    (h : writeBE t dst v = some dst') : dst'.length = dst.length := by
  unfold writeBE at h
  split at h
  · cases h; simp; omega
  · cases h

theorem copyZip_length (dst src : List UInt8) : (copyZip dst src).length = dst.length := by
  simp [copyZip]; omega

/-! ## byte 列の上の読み書き

数の field の意味を言うための二つの操作。`bytesAt` は `[p, p + n)` の byte を取り出し、
`writeAt` は `[p, p + bs.length)` を `bs` に置き換える。
-/

/-- `buf` の `[p, p + n)` の byte。 -/
def bytesAt (buf : List UInt8) (p n : Nat) : List UInt8 := (buf.drop p).take n

/-- `buf` の `[p, p + bs.length)` を `bs` に置き換えたもの。 -/
def writeAt (buf : List UInt8) (p : Nat) (bs : List UInt8) : List UInt8 :=
  buf.take p ++ bs ++ buf.drop (p + bs.length)

theorem getElem?_bytesAt (buf : List UInt8) (p n j : Nat) :
    (bytesAt buf p n)[j]? = if j < n then buf[p + j]? else none := by
  unfold bytesAt
  split
  · rw [List.getElem?_take_of_lt ‹_›, List.getElem?_drop]
  · rw [List.getElem?_eq_none]; simp; omega

/-- `[p, p + bs.length)` は `bs` の byte に、ほかの byte はそのまま。 -/
theorem getElem?_writeAt {buf bs : List UInt8} {p : Nat} (h : p + bs.length ≤ buf.length) (i : Nat) :
    (writeAt buf p bs)[i]? = if p ≤ i ∧ i < p + bs.length then bs[i - p]? else buf[i]? := by
  unfold writeAt
  have hp : (buf.take p).length = p := by simp; omega
  by_cases h₁ : i < p
  · rw [List.append_assoc, List.getElem?_append_left (by omega), List.getElem?_take_of_lt h₁,
      if_neg (by omega)]
  · rw [List.append_assoc, List.getElem?_append_right (by omega), hp]
    by_cases h₂ : i < p + bs.length
    · rw [List.getElem?_append_left (by omega), if_pos ⟨by omega, h₂⟩]
    · rw [List.getElem?_append_right (by omega), List.getElem?_drop, if_neg (by omega)]
      congr 1; omega

theorem length_writeAt {buf bs : List UInt8} {p : Nat} (h : p + bs.length ≤ buf.length) :
    (writeAt buf p bs).length = buf.length := by
  simp [writeAt]; omega

theorem bytesAt_writeAt_self {buf bs : List UInt8} {p : Nat} (h : p + bs.length ≤ buf.length) :
    bytesAt (writeAt buf p bs) p bs.length = bs := by
  apply List.ext_getElem?
  intro j
  rw [getElem?_bytesAt]
  split
  · rw [getElem?_writeAt h, if_pos ⟨by omega, by omega⟩, Nat.add_sub_cancel_left]
  · rw [List.getElem?_eq_none (by omega)]

/-- `[p, p + bs.length)` と重ならない範囲は、書く前と同じ byte を持つ。 -/
theorem bytesAt_writeAt_of_disjoint {buf bs : List UInt8} {p q n : Nat}
    (h : p + bs.length ≤ buf.length) (hd : q + n ≤ p ∨ p + bs.length ≤ q) :
    bytesAt (writeAt buf p bs) q n = bytesAt buf q n := by
  apply List.ext_getElem?
  intro j
  rw [getElem?_bytesAt, getElem?_bytesAt]
  split
  · rw [getElem?_writeAt h, if_neg (by omega)]
  · rfl

/-! ## buffer -/

/-- `LONG_SIZE`。 -/
def LONG_SIZE : Nat := 8

/-- `INT_SIZE`。 -/
def INT_SIZE : Nat := 4

/-- `SHORT_SIZE`。 -/
def SHORT_SIZE : Nat := 2

/-- `calculate_offset_long`。 -/
def calculateOffsetLong (position : Nat) : Nat := position + LONG_SIZE

/-- `calculate_offset_32`。 -/
def calculateOffset32 (position : Nat) : Nat := position + INT_SIZE

/-- `calculate_offset_16`。 -/
def calculateOffset16 (position : Nat) : Nat := position + SHORT_SIZE

theorem calculateOffset32_le_long (position : Nat) :
    calculateOffset32 position ≤ calculateOffsetLong position := by
  simp [calculateOffset32, calculateOffsetLong, INT_SIZE, LONG_SIZE]

/-- `AtomicByteBufferInt`。`buffer` の長さはいつも `capacity` である。 -/
structure AtomicByteBufferInt where
  capacity : Nat
  buffer : List UInt8
  maxMessageSize : Nat
  buffer_length : buffer.length = capacity

namespace AtomicByteBufferInt

/-- `AtomicByteBufferInt::new(size)`：2 冪に丸めた長さの、0 で埋めた buffer。 -/
def new (size : Nat) : AtomicByteBufferInt :=
  { capacity := roundToPowerOfTwo size, buffer := List.replicate (roundToPowerOfTwo size) 0,
    maxMessageSize := roundToPowerOfTwo size >>> 3, buffer_length := List.length_replicate _ _ }

/-- 長さを変えない書き換え `f` を `buffer` に施す。`f` が panic すれば panic。 -/
def update (b : AtomicByteBufferInt) (f : List UInt8 → Option (List UInt8))
    (hf : ∀ buf buf', f buf = some buf' → buf'.length = buf.length) : Option AtomicByteBufferInt :=
  match h : f b.buffer with
  | none => none
  | some buf' => some { b with buffer := buf', buffer_length := (hf _ _ h).trans b.buffer_length }

theorem update_of_some {b : AtomicByteBufferInt} {f : List UInt8 → Option (List UInt8)} {hf}
    {buf' : List UInt8} (h : f b.buffer = some buf') :
    ∃ b', b.update f hf = some b' ∧ b'.capacity = b.capacity ∧ b'.buffer = buf' := by
  unfold update
  split
  · simp_all
  · simp_all

theorem update_of_none {b : AtomicByteBufferInt} {f : List UInt8 → Option (List UInt8)} {hf}
    (h : f b.buffer = none) : b.update f hf = none := by
  unfold update
  split
  · rfl
  · simp_all

/-- `update` の結果は、書き換えが `buffer` に返すものだけで決まる。 -/
theorem update_congr {b : AtomicByteBufferInt} {f g : List UInt8 → Option (List UInt8)} {hf hg}
    (h : f b.buffer = g b.buffer) : b.update f hf = b.update g hg := by
  unfold update
  split <;> split <;> simp_all

/-- 型 `t` の数を `buffer[position..stop]` から読む。`get_u64` から `get_i16` の共通の形。 -/
def getNum {T : Type} (t : IntType T) (b : AtomicByteBufferInt) (position stop : Nat) : Option T :=
  (slice b.buffer position stop).bind (readBE t)

/-- 型 `t` の数を `buffer[position..stop]` に書く。`put_u64` から `put_i16` の共通の形。 -/
def putNum {T : Type} (t : IntType T) (b : AtomicByteBufferInt) (position stop : Nat) (v : T) :
    Option AtomicByteBufferInt :=
  b.update (fun buf => modifySlice buf position stop fun s => writeBE t s v)
    fun _ _ => modifySlice_length fun _ _ => writeBE_length t v

theorem slice_eq (buf : List UInt8) {start stop : Nat} (h : start ≤ stop) :
    slice buf start stop = if stop ≤ buf.length then some (bytesAt buf start (stop - start)) else none := by
  by_cases hs : stop ≤ buf.length <;> simp [slice, bytesAt, h, hs]

/-- slice `[p, stop)` が幅 `t.width` より長くても、読むのは先頭の `[p, p + t.width)` である。
範囲が buffer からはみ出せば panic。 -/
theorem getNum_eq {T : Type} (t : IntType T) (b : AtomicByteBufferInt) {p stop : Nat}
    (hw : p + t.width ≤ stop) :
    getNum t b p stop =
      if stop ≤ b.capacity then some (t.decode (bytesAt b.buffer p t.width)) else none := by
  rw [getNum, slice_eq _ (by omega), b.buffer_length]
  split
  · simp only [Option.some_bind, readBE, bytesAt, List.length_take, List.length_drop, b.buffer_length,
      List.take_take]
    rw [if_pos (by omega), Nat.min_eq_left (by omega)]
  · rfl

/-- 同じく、書くのは slice の先頭の `[p, p + t.width)` だけである。 -/
theorem modifySlice_writeBE {T : Type} (t : IntType T) (v : T) {buf : List UInt8} {p stop : Nat}
    (hw : p + t.width ≤ stop) (hs : stop ≤ buf.length) :
    modifySlice buf p stop (fun s => writeBE t s v) = some (writeAt buf p (t.encode v)) := by
  have hsl : slice buf p stop = some ((buf.drop p).take (stop - p)) := by
    simp [slice, hs]; omega
  have hlen : t.width ≤ ((buf.drop p).take (stop - p)).length := by simp; omega
  simp only [modifySlice, hsl, Option.some_bind, writeBE, if_pos hlen, Option.map_some',
    writeAt, IntType.length_encode, List.append_assoc, Option.some.injEq, List.append_cancel_left_eq]
  rw [List.drop_take, List.drop_drop]
  conv_rhs => rw [← List.take_append_drop (stop - p - t.width) (buf.drop (p + t.width)), List.drop_drop]
  congr 2; omega

theorem putNum_of_le {T : Type} (t : IntType T) (b : AtomicByteBufferInt) {p stop : Nat} (v : T)
    (hw : p + t.width ≤ stop) (hs : stop ≤ b.capacity) :
    ∃ b', putNum t b p stop v = some b' ∧ b'.capacity = b.capacity ∧
      b'.buffer = writeAt b.buffer p (t.encode v) :=
  update_of_some (modifySlice_writeBE t v hw (b.buffer_length ▸ hs))

theorem putNum_of_lt {T : Type} (t : IntType T) (b : AtomicByteBufferInt) {p stop : Nat} (v : T)
    (hs : b.capacity < stop) : putNum t b p stop v = none :=
  update_of_none (by simp [modifySlice, slice, b.buffer_length]; omega)

/-- slice を幅より長く切っても、buffer に収まる限り読む値は変わらない。収まらなければ panic。 -/
theorem getNum_stop {T : Type} (t : IntType T) (b : AtomicByteBufferInt) {p stop stop' : Nat}
    (hw : p + t.width ≤ stop) (hs : stop ≤ stop') :
    getNum t b p stop' = if stop' ≤ b.capacity then getNum t b p stop else none := by
  rw [getNum_eq t b (by omega : p + t.width ≤ stop'), getNum_eq t b hw]
  by_cases h : stop' ≤ b.capacity
  · rw [if_pos h, if_pos h, if_pos (by omega)]
  · rw [if_neg h, if_neg h]

/-- slice を幅より長く切っても、buffer に収まる限り書いた後の buffer は変わらない。
収まらなければ panic。 -/
theorem putNum_stop {T : Type} (t : IntType T) (b : AtomicByteBufferInt) {p stop stop' : Nat} (v : T)
    (hw : p + t.width ≤ stop) (hs : stop ≤ stop') :
    putNum t b p stop' v = if stop' ≤ b.capacity then putNum t b p stop v else none := by
  by_cases h : stop' ≤ b.capacity
  · rw [if_pos h]
    have hl : stop' ≤ b.buffer.length := b.buffer_length ▸ h
    exact update_congr ((modifySlice_writeBE t v (by omega) hl).trans
      (modifySlice_writeBE t v hw (by omega)).symm)
  · rw [if_neg h, putNum_of_lt t b v (by omega)]

/-! ## `DirectByteBuffer` -/

/-- `get_u64`。 -/
def getU64 (b : AtomicByteBufferInt) (position : Nat) : Option UInt64 :=
  getNum u64 b position (calculateOffsetLong position)

/-- `put_u64`。 -/
def putU64 (b : AtomicByteBufferInt) (position : Nat) (value : UInt64) : Option AtomicByteBufferInt :=
  putNum u64 b position (calculateOffsetLong position) value

/-- `get_i64`。 -/
def getI64 (b : AtomicByteBufferInt) (position : Nat) : Option (BitVec 64) :=
  getNum i64 b position (calculateOffsetLong position)

/-- `put_i64`。 -/
def putI64 (b : AtomicByteBufferInt) (position : Nat) (value : BitVec 64) : Option AtomicByteBufferInt :=
  putNum i64 b position (calculateOffsetLong position) value

/-- `get_u32`。 -/
def getU32 (b : AtomicByteBufferInt) (position : Nat) : Option UInt32 :=
  getNum u32 b position (calculateOffset32 position)

/-- `put_u32`。 -/
def putU32 (b : AtomicByteBufferInt) (position : Nat) (value : UInt32) : Option AtomicByteBufferInt :=
  putNum u32 b position (calculateOffset32 position) value

/-- `get_i32`。 -/
def getI32 (b : AtomicByteBufferInt) (position : Nat) : Option (BitVec 32) :=
  getNum i32 b position (calculateOffset32 position)

/-- `put_i32`。 -/
def putI32 (b : AtomicByteBufferInt) (position : Nat) (value : BitVec 32) : Option AtomicByteBufferInt :=
  putNum i32 b position (calculateOffset32 position) value

/-- `get_u16`。 -/
def getU16 (b : AtomicByteBufferInt) (position : Nat) : Option UInt16 :=
  getNum u16 b position (calculateOffset16 position)

/-- `put_u16`。 -/
def putU16 (b : AtomicByteBufferInt) (position : Nat) (value : UInt16) : Option AtomicByteBufferInt :=
  putNum u16 b position (calculateOffset16 position) value

/-- `get_i16`。 -/
def getI16 (b : AtomicByteBufferInt) (position : Nat) : Option (BitVec 16) :=
  getNum i16 b position (calculateOffset16 position)

/-- `put_i16`。 -/
def putI16 (b : AtomicByteBufferInt) (position : Nat) (value : BitVec 16) : Option AtomicByteBufferInt :=
  putNum i16 b position (calculateOffset16 position) value

/-- `get_bytes`：`buffer[position..position + length]`。 -/
def getBytes (b : AtomicByteBufferInt) (position length : Nat) : Option (List UInt8) :=
  slice b.buffer position (position + length)

/-- `set_bytes`：`as_bytes_mut(position, length)` の各 byte を `value` にする。 -/
def setBytes (b : AtomicByteBufferInt) (position length : Nat) (value : UInt8) :
    Option AtomicByteBufferInt :=
  b.update (fun buf => modifySlice buf position (position + length) fun s => some (List.replicate s.length value))
    fun _ _ => modifySlice_length fun _ _ h => by cases h; simp

/-- `write_bytes`：`as_bytes_mut(position, bytes.len())` に `bytes` を写す。 -/
def writeBytes (b : AtomicByteBufferInt) (position : Nat) (bytes : List UInt8) :
    Option AtomicByteBufferInt :=
  b.update (fun buf => modifySlice buf position (position + bytes.length) fun s => some (copyZip s bytes))
    fun _ _ => modifySlice_length fun _ _ h => by cases h; exact copyZip_length _ _

/-! ## `AtomicByteBuffer`

`fence` を除けば、`u64` と `i64` は `DirectByteBuffer` と同じ slice を使う。
`u32` と `i32` は `calculate_offset_32` ではなく `calculate_offset_long` で slice を切る。
-/

/-- `get_u64_volatile`。 -/
def getU64Volatile (b : AtomicByteBufferInt) (position : Nat) : Option UInt64 :=
  getNum u64 b position (calculateOffsetLong position)

/-- `put_u64_volatile`。 -/
def putU64Volatile (b : AtomicByteBufferInt) (position : Nat) (value : UInt64) :
    Option AtomicByteBufferInt :=
  putNum u64 b position (calculateOffsetLong position) value

/-- `get_i64_volatile`。 -/
def getI64Volatile (b : AtomicByteBufferInt) (position : Nat) : Option (BitVec 64) :=
  getNum i64 b position (calculateOffsetLong position)

/-- `put_i64_volatile`。 -/
def putI64Volatile (b : AtomicByteBufferInt) (position : Nat) (value : BitVec 64) :
    Option AtomicByteBufferInt :=
  putNum i64 b position (calculateOffsetLong position) value

/-- `get_u32_volatile`。slice は `calculate_offset_long` まで。 -/
def getU32Volatile (b : AtomicByteBufferInt) (position : Nat) : Option UInt32 :=
  getNum u32 b position (calculateOffsetLong position)

/-- `put_u32_volatile`。slice は `calculate_offset_long` まで。 -/
def putU32Volatile (b : AtomicByteBufferInt) (position : Nat) (value : UInt32) :
    Option AtomicByteBufferInt :=
  putNum u32 b position (calculateOffsetLong position) value

/-- `get_i32_volatile`。slice は `calculate_offset_long` まで。 -/
def getI32Volatile (b : AtomicByteBufferInt) (position : Nat) : Option (BitVec 32) :=
  getNum i32 b position (calculateOffsetLong position)

/-- `put_i32_volatile`。slice は `calculate_offset_long` まで。 -/
def putI32Volatile (b : AtomicByteBufferInt) (position : Nat) (value : BitVec 32) :
    Option AtomicByteBufferInt :=
  putNum i32 b position (calculateOffsetLong position) value

end AtomicByteBufferInt

end RustCommon.Buffer
