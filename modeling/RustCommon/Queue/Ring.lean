import RustCommon.Basic

/-!
# ring queue の共有 memory

`SpscQueue` と `MpscQueue` は同じ field を持つ（`mask`、`ring_buffer`、`capacity`、
`sequence_number`、`producer`）。違うのは producer 側の cursor の進め方と、
consumer 側の spin の打ち切り方だけである。ここには二つに共通のものを置く。

* `Node` — slot。stamp（`id`）と payload。stamp 0 は空を表す。cursor は 1 から始まるので、
  本物の index が 0 になることはない。
* `RingQueue` — 共有 memory。cursor は `PaddedUsize` の `counter` だけを持つ。
  padding は値に効かない。cursor は `Nat` で持つ（`usize` を超えるほど呼ばれることはない）。
* `Call` / `Reply` / `Fifo` — 呼び出し、返り値、容量付き FIFO。逐次実行が refine する抽象 model。
* `Slots` — 「窓 `[lo, hi)` の index の slot が決まった node で、窓の外は空」という形。
  両 queue の表現不変量も、SPSC の並行実行の不変量もこの形で書く。
-/

namespace RustCommon.Queue

/-- `SpscNode` / `MpscNode`。`id` が stamp で、0 は「空」。 -/
structure Node (T : Type) where
  id : Nat
  value : Option T
deriving DecidableEq, Repr

/-- `SpscQueue` / `MpscQueue` の field。`ring_buffer` は `pos` が返す `[0, capacity)` の slot だけを使う。 -/
structure RingQueue (T : Type) where
  mask : Nat
  ringBuffer : Nat → Node T
  capacity : Nat
  /-- consumer の cursor（`sequence_number.counter`）。 -/
  sequenceNumber : Nat
  /-- producer の cursor（`producer.counter`）。 -/
  producer : Nat

namespace RingQueue

variable {T : Type}

/-- `SpscQueue::new` / `MpscQueue::new`（本体は同じ）。容量を 2 冪に丸め、全 slot を stamp 0、
payload なしで作る。cursor は両方 1 から始まる。 -/
def new (queueSize : Nat) : RingQueue T :=
  let powerOf2 := roundToPowerOfTwo queueSize
  { ringBuffer := fun _ => ⟨0, none⟩, capacity := powerOf2, mask := powerOf2 - 1,
    sequenceNumber := 1, producer := 1 }

/-- `pos(index) = index & mask`。 -/
def pos (q : RingQueue T) (index : Nat) : Nat := index &&& q.mask

/-- slot の `id` に書く（`node.id.store`）。 -/
def setId (q : RingQueue T) (pos id : Nat) : RingQueue T :=
  { q with ringBuffer := Function.update q.ringBuffer pos { q.ringBuffer pos with id := id } }

/-- slot の payload を書き換える（`node.value = Some(value)`、`replace(&mut node.value, None)`）。 -/
def setValue (q : RingQueue T) (pos : Nat) (v : Option T) : RingQueue T :=
  { q with ringBuffer := Function.update q.ringBuffer pos { q.ringBuffer pos with value := v } }

@[simp] theorem setId_mask (q : RingQueue T) (p i : Nat) : (q.setId p i).mask = q.mask := rfl
@[simp] theorem setId_capacity (q : RingQueue T) (p i : Nat) :
    (q.setId p i).capacity = q.capacity := rfl
@[simp] theorem setId_sequenceNumber (q : RingQueue T) (p i : Nat) :
    (q.setId p i).sequenceNumber = q.sequenceNumber := rfl
@[simp] theorem setId_producer (q : RingQueue T) (p i : Nat) :
    (q.setId p i).producer = q.producer := rfl
@[simp] theorem setValue_mask (q : RingQueue T) (p : Nat) (v : Option T) :
    (q.setValue p v).mask = q.mask := rfl
@[simp] theorem setValue_capacity (q : RingQueue T) (p : Nat) (v : Option T) :
    (q.setValue p v).capacity = q.capacity := rfl
@[simp] theorem setValue_sequenceNumber (q : RingQueue T) (p : Nat) (v : Option T) :
    (q.setValue p v).sequenceNumber = q.sequenceNumber := rfl
@[simp] theorem setValue_producer (q : RingQueue T) (p : Nat) (v : Option T) :
    (q.setValue p v).producer = q.producer := rfl

@[simp] theorem setId_pos (q : RingQueue T) (p i j : Nat) : (q.setId p i).pos j = q.pos j := rfl
@[simp] theorem setValue_pos (q : RingQueue T) (p : Nat) (v : Option T) (j : Nat) :
    (q.setValue p v).pos j = q.pos j := rfl
@[simp] theorem pos_setProducer (q : RingQueue T) (p j : Nat) :
    ({ q with producer := p } : RingQueue T).pos j = q.pos j := rfl
@[simp] theorem pos_setSequenceNumber (q : RingQueue T) (s j : Nat) :
    ({ q with sequenceNumber := s } : RingQueue T).pos j = q.pos j := rfl

theorem setId_ringBuffer (q : RingQueue T) (p i j : Nat) :
    (q.setId p i).ringBuffer j = if j = p then { q.ringBuffer p with id := i } else q.ringBuffer j := by
  by_cases h : j = p
  · subst h; simp [setId]
  · simp [setId, h]

theorem setValue_ringBuffer (q : RingQueue T) (p : Nat) (v : Option T) (j : Nat) :
    (q.setValue p v).ringBuffer j =
      if j = p then { q.ringBuffer p with value := v } else q.ringBuffer j := by
  by_cases h : j = p
  · subst h; simp [setValue]
  · simp [setValue, h]

end RingQueue

/-! ## 呼び出しと容量付き FIFO -/

/-- queue への呼び出し。`offer` は producer が、残りは consumer が呼ぶ。
`peek` は `SpscQueue` にだけある。 -/
inductive Call (T : Type)
  | offer (value : T)
  | poll
  | drain (limit : Nat)
  | peek

/-- 呼び出しの返り値。`drain` の `act` に渡った値は別に記録する。 -/
inductive Reply (T : Type)
  | offered (ok : Bool)
  | polled (v : Option T)
  | drained (count : Nat)
  | peeked (v : Option T)
deriving DecidableEq, Repr

/-- 容量付き FIFO の状態：中身と、これまでの返り値、`act` に渡した値。 -/
structure Fifo (T : Type) where
  items : List T
  replies : List (Reply T)
  acted : List T

namespace Fifo

variable {T : Type}

/-- 容量 `capacity` の FIFO に一回呼ぶ。`offer` は満杯なら何も変えずに `false`、`drain` は
先頭の `min limit length` 個を順に `act` に渡す。 -/
def call (capacity : Nat) (f : Fifo T) : Call T → Fifo T
  | .offer v =>
    if f.items.length < capacity then ⟨f.items ++ [v], f.replies ++ [.offered true], f.acted⟩
    else ⟨f.items, f.replies ++ [.offered false], f.acted⟩
  | .poll => ⟨f.items.tail, f.replies ++ [.polled f.items.head?], f.acted⟩
  | .drain limit =>
    ⟨f.items.drop limit, f.replies ++ [.drained (min limit f.items.length)],
      f.acted ++ f.items.take limit⟩
  | .peek => ⟨f.items, f.replies ++ [.peeked f.items.head?], f.acted⟩

/-- 空の FIFO から呼び出しを順に行う。 -/
def run (capacity : Nat) (calls : List (Call T)) : Fifo T :=
  calls.foldl (call capacity) ⟨[], [], []⟩

end Fifo

/-! ## slot の配置 -/

section Slots

variable {T : Type}

/-- ring の slot の配置：窓 `[lo, hi)` の各 index `i` の slot（`i % C`）は `node i` で、
窓の外の slot は空である。窓の長さは `C` 以下なので、slot の持ち主は一つに決まる。 -/
structure Slots (ring : Nat → Node T) (C lo hi : Nat) (node : Nat → Node T) : Prop where
  window : hi ≤ lo + C
  live : ∀ i, lo ≤ i → i < hi → ring (i % C) = node i
  free : ∀ j < C, (∀ i, lo ≤ i → i < hi → i % C ≠ j) → ring j = ⟨0, none⟩

variable {ring ring' : Nat → Node T} {C lo hi : Nat} {node node' : Nat → Node T}

/-- 窓の中の値だけが効く。 -/
theorem Slots.congr (h : Slots ring C lo hi node) (hnode : ∀ i, lo ≤ i → i < hi → node' i = node i) :
    Slots ring C lo hi node' :=
  ⟨h.window, fun i h1 h2 => (h.live i h1 h2).trans (hnode i h1 h2).symm, h.free⟩

/-- 窓の中の index `x` の slot だけを書き換える。 -/
theorem Slots.update (h : Slots ring C lo hi node) {x : Nat} (hx₁ : lo ≤ x) (hx₂ : x < hi)
    (hring : ∀ j, j ≠ x % C → ring' j = ring j) (hx : ring' (x % C) = node' x)
    (hnode : ∀ i, lo ≤ i → i < hi → i ≠ x → node' i = node i) : Slots ring' C lo hi node' where
  window := h.window
  live i h1 h2 := by
    by_cases hix : i = x
    · subst hix; exact hx
    · have hne : i % C ≠ x % C := fun he => hix (mod_injOn_window h.window h1 h2 hx₁ hx₂ he)
      rw [hring _ hne, hnode i h1 h2 hix, h.live i h1 h2]
  free j hj hout := by
    rw [hring j (fun he => hout x hx₁ hx₂ he.symm), h.free j hj hout]

/-- 窓の中の index `x` の slot だけを書き換える。slot の中身そのものを `node` にとった形。 -/
theorem Slots.self_update (h : Slots ring C lo hi fun i => ring (i % C)) {x : Nat}
    (hx₁ : lo ≤ x) (hx₂ : x < hi) (hring : ∀ j, j ≠ x % C → ring' j = ring j) :
    Slots ring' C lo hi fun i => ring' (i % C) :=
  h.update hx₁ hx₂ hring rfl fun _ h1 h2 hi =>
    hring _ fun he => hi (mod_injOn_window h.window h1 h2 hx₁ hx₂ he)

/-- 窓の後ろに空の slot を一つ足す。窓の外だった slot は空なので、memory は書き換えない。 -/
theorem Slots.grow (h : Slots ring C lo hi node) (hw : hi < lo + C)
    (hhi : node' hi = ⟨0, none⟩) (hnode : ∀ i, lo ≤ i → i < hi → node' i = node i) :
    Slots ring C lo (hi + 1) node' where
  window := by omega
  live i h1 h2 := by
    by_cases hih : i = hi
    · subst hih
      rw [hhi]
      refine h.free _ (Nat.mod_lt _ (by omega)) fun k hk₁ hk₂ he => ?_
      have := mod_injOn_window (show i + 1 ≤ lo + C by omega) hk₁ (by omega) h1 (by omega) he
      omega
    · rw [h.live i h1 (by omega), hnode i h1 (by omega)]
  free j hj hout := h.free j hj fun i h1 h2 => hout i h1 (by omega)

/-- 窓の後ろの空いた slot に `node' hi` を書いて、窓を一つ伸ばす。 -/
theorem Slots.push (h : Slots ring C lo hi node) (hlo : lo ≤ hi) (hw : hi < lo + C)
    (hring : ∀ j, j ≠ hi % C → ring' j = ring j) (hhi : ring' (hi % C) = node' hi)
    (hnode : ∀ i, lo ≤ i → i < hi → node' i = node i) : Slots ring' C lo (hi + 1) node' where
  window := by omega
  live i h1 h2 := by
    by_cases hih : i = hi
    · subst hih; exact hhi
    · have hne : i % C ≠ hi % C := fun he =>
        hih (mod_injOn_window (show hi + 1 ≤ lo + C by omega) h1 h2 hlo (by omega) he)
      rw [hring _ hne, h.live i h1 (by omega), hnode i h1 (by omega)]
  free j hj hout := by
    rw [hring j fun he => hout hi hlo (by omega) he.symm]
    exact h.free j hj fun i h1 h2 => hout i h1 (by omega)

/-- 窓の先頭の slot を空にして、窓を一つ縮める。 -/
theorem Slots.shrink (h : Slots ring C lo hi node) (hlt : lo < hi)
    (hring : ∀ j, j ≠ lo % C → ring' j = ring j) (hlo : ring' (lo % C) = ⟨0, none⟩)
    (hnode : ∀ i, lo < i → i < hi → node' i = node i) : Slots ring' C (lo + 1) hi node' where
  window := by have := h.window; omega
  live i h1 h2 := by
    have hne : i % C ≠ lo % C := fun he =>
      absurd (mod_injOn_window h.window (by omega) h2 (Nat.le_refl lo) hlt he) (by omega)
    rw [hring _ hne, h.live i (by omega) h2, hnode i (by omega) h2]
  free j hj hout := by
    by_cases hj' : j = lo % C
    · subst hj'; exact hlo
    · rw [hring j hj']
      refine h.free j hj fun i h1 h2 he => ?_
      rcases Nat.eq_or_lt_of_le h1 with rfl | h1'
      · exact hj' he.symm
      · exact hout i h1' h2 he

/-- 窓の外の slot は空である。 -/
theorem Slots.out (h : Slots ring C lo hi node) {j : Nat} (hC : 0 < C) (hj₁ : hi ≤ j) (hj₂ : j < lo + C) :
    ring (j % C) = ⟨0, none⟩ :=
  h.free _ (Nat.mod_lt _ hC) fun i h1 h2 he =>
    absurd (mod_injOn_window (show j + 1 ≤ lo + C by omega) h1 (by omega) (by omega) (by omega) he)
      (by omega)

end Slots

/-! ## ring の表現 -/

section RingAt

variable {T : Type}

/-- 窓 `[lo, lo + items.length)` の slot が stamp 付きで `items` を順に持ち、窓の外の slot は空である。 -/
def Holds (q : RingQueue T) (lo : Nat) (items : List T) : Prop :=
  Slots q.ringBuffer q.capacity lo (lo + items.length) fun i => ⟨i, items[i - lo]?⟩

/--
ring の表現：容量は 2 冪で `mask = capacity - 1`、窓の先頭 `lo ≥ 1` から `producer` までの slot が
`items` を持つ。両 thread が idle のときは `lo = sequence_number` で、`items` が queue の中身
（抽象 FIFO）である。`drain` の途中では cursor が先に進むので、`lo` は cursor より手前にある。
-/
structure RingAt (q : RingQueue T) (lo : Nat) (items : List T) : Prop where
  pow2 : q.capacity.isPowerOfTwo
  mask : q.mask = q.capacity - 1
  one_le : 1 ≤ lo
  producer_eq : q.producer = lo + items.length
  holds : Holds q lo items

variable {q : RingQueue T} {lo : Nat} {items : List T}

theorem RingAt.pos_eq (h : RingAt q lo items) (i : Nat) : q.pos i = i % q.capacity := by
  rw [RingQueue.pos, h.mask, and_mask_eq_mod h.pow2]

theorem RingAt.capacity_pos (h : RingAt q lo items) : 0 < q.capacity :=
  Nat.pos_of_isPowerOfTwo h.pow2

theorem RingAt.length_le (h : RingAt q lo items) : items.length ≤ q.capacity := by
  have := h.holds.window; omega

/-- cursor の値は窓に効かない。`poll` と `drain` は取り出す前に cursor を書く。 -/
theorem RingAt.setSequenceNumber (h : RingAt q lo items) (s : Nat) :
    RingAt { q with sequenceNumber := s } lo items :=
  ⟨h.pow2, h.mask, h.one_le, h.producer_eq, h.holds⟩

/-- `offer` の容量の検査 `p < capacity || p - capacity < c` は、中身が容量より少ないことである。 -/
theorem RingAt.room_iff (h : RingAt q q.sequenceNumber items) :
    (q.producer < q.capacity ∨ q.producer - q.capacity < q.sequenceNumber) ↔
      items.length < q.capacity := by
  have := h.producer_eq; have := h.one_le; have := h.length_le; omega

/-- 作ったばかりの queue は空の FIFO を表す。 -/
theorem ringAt_new (queueSize : Nat) : RingAt (RingQueue.new queueSize : RingQueue T) 1 [] where
  pow2 := roundToPowerOfTwo_isPowerOfTwo queueSize
  mask := rfl
  one_le := Nat.le_refl 1
  producer_eq := rfl
  holds := ⟨by simp [RingQueue.new], fun i h1 h2 => by simp at h2; omega, fun _ _ _ => rfl⟩

/-- 窓の先頭の slot には、先頭の要素が stamp 付きで入っている。 -/
theorem RingAt.head {x : T} {xs : List T} (h : RingAt q lo (x :: xs)) :
    q.ringBuffer (q.pos lo) = ⟨lo, some x⟩ := by
  rw [h.pos_eq, h.holds.live lo (Nat.le_refl lo) (by simp)]; simp

/-- 先頭の slot の payload を取り出して stamp を消すと、残りが一つ後ろから並ぶ。 -/
theorem RingAt.take {x : T} {xs : List T} (h : RingAt q lo (x :: xs)) :
    RingAt ((q.setValue (q.pos lo) none).setId (q.pos lo) 0) (lo + 1) xs where
  pow2 := h.pow2
  mask := h.mask
  one_le := by have := h.one_le; omega
  producer_eq := by simp [h.producer_eq]; omega
  holds := by
    unfold Holds
    rw [show lo + 1 + xs.length = lo + (x :: xs).length by simp; omega]
    refine h.holds.shrink (by simp) (fun j hj => ?_) ?_ fun i h1 _ => ?_
    · simp [RingQueue.setId_ringBuffer, RingQueue.setValue_ringBuffer, h.pos_eq, hj]
    · simp [RingQueue.setId_ringBuffer, RingQueue.setValue_ringBuffer, ← h.pos_eq]
    · obtain ⟨k, rfl⟩ : ∃ k, i = lo + 1 + k := ⟨i - (lo + 1), by omega⟩
      simp [show lo + 1 + k - lo = k + 1 by omega]

/-- 窓がいっぱいでなければ、窓の後ろの slot は空である。 -/
theorem RingAt.free (h : RingAt q lo items) (hlt : items.length < q.capacity) :
    q.ringBuffer (q.pos q.producer) = ⟨0, none⟩ := by
  rw [h.pos_eq, h.producer_eq]
  exact h.holds.out h.capacity_pos (Nat.le_refl _) (by omega)

/-- producer の cursor を進め、窓の後ろの slot に payload と stamp を書くと、中身が一つ伸びる。 -/
theorem RingAt.push (h : RingAt q lo items) (hlt : items.length < q.capacity) (v : T) :
    RingAt ((({ q with producer := q.producer + 1 } : RingQueue T).setValue (q.pos q.producer)
      (some v)).setId (q.pos q.producer) q.producer) lo (items ++ [v]) where
  pow2 := h.pow2
  mask := h.mask
  one_le := h.one_le
  producer_eq := by simp [h.producer_eq]; omega
  holds := by
    unfold Holds
    rw [List.length_append, List.length_singleton, ← Nat.add_assoc]
    refine h.holds.push (by omega) (by omega) (fun j hj => ?_) ?_ fun i h1 h2 => ?_
    · simp [RingQueue.setId_ringBuffer, RingQueue.setValue_ringBuffer, h.pos_eq, h.producer_eq, hj]
    · simp [RingQueue.setId_ringBuffer, RingQueue.setValue_ringBuffer, h.pos_eq, h.producer_eq]
    · simp [List.getElem?_append_left (show i - lo < items.length by omega)]

end RingAt

/-! ## `drain` の loop

SPSC と MPSC の `drain` は、cursor を `r` 個進めた後、`for i in 0..r` で窓の先頭の slot を一つずつ 3 歩で
取り出して `act` に渡す。二つの queue で違うのは program counter の形だけなので、loop の議論はここで
一度だけ書き、それぞれの queue は一回分の 3 歩だけを示す。
-/

section DrainLoop

variable {T S : Type} {next : S → S} {done : S → Bool} (queue : S → RingQueue T) (acted : S → List T)

/--
`drain` の loop。`At i σ` は loop の `i` 回目の頭にいること、`Done σ` は loop を抜けて idle に戻ったこと。
一回（3 歩）が窓の先頭の slot を空にしてその payload を `acted` に足し、`r` 回目の後で `Done` に着くなら、
`i` 回目の頭から、窓の先頭に並ぶ `xs` を `3 * xs.length` 歩で取り出して `Done` に着く。
-/
theorem drain_loop (At : Nat → S → Prop) (Done : S → Prop) (hdone : ∀ σ, Done σ → done σ = true)
    {s r : Nat} {ys : List T}
    (hitem : ∀ i σ x xs, At i σ → RingAt (queue σ) (s + i) (x :: xs) → ∃ σ',
      (∀ fuel, soloRun next done (fuel + 3) σ = soloRun next done fuel σ') ∧
      queue σ' = ((queue σ).setValue ((queue σ).pos (s + i)) none).setId ((queue σ).pos (s + i)) 0 ∧
      acted σ' = acted σ ++ [x] ∧ (if i + 1 < r then At (i + 1) σ' else Done σ')) :
    ∀ (xs : List T) (σ : S) (i : Nat), At i σ → i + xs.length = r → xs ≠ [] →
      RingAt (queue σ) (s + i) (xs ++ ys) →
      ∃ σ', soloRun next done (3 * xs.length) σ = some σ' ∧ Done σ' ∧ RingAt (queue σ') (s + r) ys ∧
        acted σ' = acted σ ++ xs ∧ (queue σ').sequenceNumber = (queue σ).sequenceNumber ∧
        (queue σ').capacity = (queue σ).capacity
  | [], _, _, _, _, hne, _ => absurd rfl hne
  | x :: xs, σ, i, hat, hlen, _, hr => by
    rw [List.cons_append] at hr
    obtain ⟨σ₁, hrun, hq, hac, hnext⟩ := hitem i σ x (xs ++ ys) hat hr
    have hr₁ : RingAt (queue σ₁) (s + (i + 1)) (xs ++ ys) := hq ▸ hr.take
    have hlen' : i + 1 + xs.length = r := by simp at hlen; omega
    cases xs with
    | nil =>
      rw [if_neg (by simp at hlen'; omega)] at hnext
      refine ⟨σ₁, ?_, hnext, by simpa [← hlen'] using hr₁, hac, by simp [hq], by simp [hq]⟩
      rw [show 3 * [x].length = 0 + 3 from rfl, hrun, soloRun_done (hdone _ hnext)]
    | cons x' xs =>
      rw [if_pos (by simp at hlen'; omega)] at hnext
      obtain ⟨σ₂, hrun₂, hd, hr₂, hac₂, hseq, hcap⟩ :=
        drain_loop At Done hdone hitem (x' :: xs) σ₁ (i + 1) hnext hlen' (List.cons_ne_nil _ _) hr₁
      refine ⟨σ₂, ?_, hd, hr₂, by rw [hac₂, hac]; simp, by rw [hseq, hq]; simp, by rw [hcap, hq]; simp⟩
      rw [show 3 * (x :: x' :: xs).length = 3 * (x' :: xs).length + 3 by simp; omega, hrun, hrun₂]

end DrainLoop

end RustCommon.Queue
