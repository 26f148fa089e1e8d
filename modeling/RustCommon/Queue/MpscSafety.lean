import RustCommon.Queue.Mpsc
import RustCommon.Queue.SpscSafety

/-!
# MPSC queue：`drain` を呼ばないか、producer が一つなら、payload は claim した値のまま取られる

`mpsc_drain_loses_payload` では、二つの producer と `drain` を混ぜると payload が失われた。
この二つのどちらかがなければ、step をどう混ぜても次が成り立つ。

* consumer が `poll` だけを呼ぶなら、producer が何個あっても（`mpsc_poll_takes_claimed_payloads`）、
* `offer` を呼ぶ thread が一つなら、consumer が `drain` を呼んでも（`mpsc_single_producer_takes_claimed_payloads`）、

取り出しの履歴は index `1, 2, …` を順に一度ずつ並べたもので、index `k` の payload は index `k` を
claim した `offer` の値である。producer が payload を書く slot は空で、取られていない payload を上書きしない。
`drain` の `panic!("Found a None!")` には届かない。

## 不変量の形

SPSC（`SpscSafety.lean`）と同じく、窓 `[lo, producer)` の各 index の slot の中身を、両側の
program counter と履歴 `claimed` で言う（`Inv`）。違いは stamp 待ちの index が producer の数だけあることで、
どの producer が claim したかは state から計算できないので、slot の中身は関係 `SlotOk` で言う。
`Inv` はどの step でも保たれる。ただ一つ、producer が claim してよいこと（窓が `capacity` を超えないこと）
だけは、二つの場合それぞれの理由で言う（`Inv.room`）。

`drain` が spin の上限で panic すると、cursor を進めて予約した index は取られないまま残り、窓の先頭はそこで止まる。
panic した consumer の program counter はその index を覚えていないので、不変量 `Inv σ nx` は
次に取る index `nx` を引数にとる。動いている consumer では `nx` は program counter と cursor で決まる
（`ConsumerPc.nextOr`）。

`offer` の空きの検査は二段ある。`sequence_number` を読んで容量を調べ、次に slot の `id == 0` を調べ、
それから CAS で claim する。窓がいっぱいのとき、producer が見る slot は窓の先頭の slot である。
先頭が stamp 済みか、stamp を消している途中なら、`id` は 0 でない。先頭が他の producer の stamp 待ちなら、
`poll` はまだその index を待っていて `sequence_number` は先頭の index のままなので、容量の検査が通っていない
（`HeadOk`）。`drain` は slot を待つ前に cursor を進めるので、この場合が崩れる。producer が一つなら、
`id` を読んでいる producer のほかに stamp 待ちの producer はいない。
-/

namespace RustCommon.Queue.Mpsc

variable {T : Type}

/-- consumer が `poll` だけを呼ぶ実行の一歩。`drain` の呼び出しは起こせない。 -/
def pollStep (σ : State T) : Action T → Option (State T)
  | .call (.drain _) => none
  | a => step σ a

/-- `offer` を thread 0 だけが呼ぶ実行の一歩。ほかの producer thread は idle のままである。 -/
def soloStep (σ : State T) : Action T → Option (State T)
  | .call (.offer t v) => if t = 0 then step σ (.call (.offer t v)) else none
  | a => step σ a

/-! ## 窓 -/

/-- consumer が次に取る index。`poll` と `drain` は cursor を進めてから payload を取るので、
取り出すまでは cursor より手前にある。 -/
def ConsumerPc.next (seq : Nat) : ConsumerPc T → Nat
  | .pollTake s => s
  | .pollClear s _ => s + 1
  | .drainLoadId s _ i _ => s + i
  | .drainTake s _ i => s + i
  | .drainClear s _ i _ => s + i + 1
  | _ => seq

/-- payload を取り出したが、stamp をまだ 0 に戻していない index。 -/
def ConsumerPc.clearing : ConsumerPc T → Option Nat
  | .pollClear s _ => some s
  | .drainClear s _ i _ => some (s + i)
  | _ => none

/-- 次に取る index が `nx` のときの窓の先頭：stamp を消している途中の index があればそれ、なければ `nx`。 -/
def ConsumerPc.lo (nx : Nat) (c : ConsumerPc T) : Nat := c.clearing.getD nx

/-- 次に取る index。`poll` の spin の panic は次に取る index が cursor のときに起きる。`drain` の panic は
cursor を進めた後に起き、consumer はそこで止まるので、次に取る index は panic の前の値 `nx` のままである。 -/
def ConsumerPc.nextOr (nx seq : Nat) : ConsumerPc T → Nat
  | .panicked .failedToGetNode => nx
  | .panicked .foundNone => nx
  | c => c.next seq

/-- claim したが stamp をまだ書いていない index。 -/
def ProducerPc.unstamped : ProducerPc T → Option Nat
  | .writeValue _ p => some p
  | .storeId _ p => some p
  | _ => none

/-- stamp を書いていない producer の slot にあるもの。payload を書く前は空、書いた後はその値。 -/
def ProducerPc.slot : ProducerPc T → Node T
  | .storeId v _ => ⟨0, some v⟩
  | _ => ⟨0, none⟩

/-- index `s` を claim して stamp を書いていない producer がいない。 -/
def Stamped (ps : Nat → ProducerPc T) (s : Nat) : Prop := ∀ t, (ps t).unstamped ≠ some s

/-- 窓の中の index `i` の slot `n` のあるべき姿。consumer が stamp を消している途中なら stamp だけが残り、
claim して stamp を書いていない producer がいればその producer が置いたもの、どちらでもなければ
index `i` に claim した値 `x` が stamp 付きで入っている。 -/
def SlotOk (clearing : Option Nat) (ps : Nat → ProducerPc T) (i : Nat) (x : Option T) (n : Node T) :
    Prop :=
  if clearing = some i then n = ⟨i, none⟩
  else (∀ t, (ps t).unstamped = some i → n = (ps t).slot) ∧ (Stamped ps i → n = ⟨i, x⟩)

theorem ProducerPc.eq_idle {pc : ProducerPc T} (h : pc.isIdle = true) : pc = .idle := by
  cases pc <;> simp_all [isIdle]

theorem ConsumerPc.eq_idle {c : ConsumerPc T} (h : c.isIdle = true) : c = .idle := by
  cases c <;> simp_all [isIdle]

theorem ConsumerPc.next_of_clearing {k : Nat} {c : ConsumerPc T} (h : c.clearing = some k) (seq : Nat) :
    c.next seq = k + 1 := by
  cases c <;> simp_all [clearing, next]

theorem ConsumerPc.nextOr_of_clearing {k : Nat} {c : ConsumerPc T} (h : c.clearing = some k) (nx seq : Nat) :
    c.nextOr nx seq = k + 1 := by
  cases c <;> simp_all [clearing, next, nextOr]

theorem ConsumerPc.lo_of_clearing_none {c : ConsumerPc T} (h : c.clearing = none) (nx : Nat) :
    c.lo nx = nx := by
  simp [lo, h]

theorem ConsumerPc.lo_of_clearing {k : Nat} {c : ConsumerPc T} (h : c.clearing = some k) (nx : Nat) :
    c.lo nx = k := by
  simp [lo, h]

section Producers

variable {ps : Nat → ProducerPc T} {t i : Nat} {pc : ProducerPc T}

theorem Stamped.update (h : Stamped ps i) (hpc : pc.unstamped ≠ some i) :
    Stamped (Function.update ps t pc) i := fun t' => by
  by_cases he : t' = t
  · subst he; simpa using hpc
  · simpa [Function.update_noteq he] using h t'

theorem Stamped.of_update (h : Stamped (Function.update ps t pc) i) (h₁ : (ps t).unstamped ≠ some i) :
    Stamped ps i := fun t' => by
  by_cases he : t' = t
  · subst he; exact h₁
  · simpa [Function.update_noteq he] using h t'

variable {c c' : Option Nat} {x : Option T} {n : Node T}

theorem SlotOk.of_clearing (h : SlotOk c ps i x n) (hc : c = some i) : n = ⟨i, none⟩ := by
  unfold SlotOk at h; rwa [if_pos hc] at h

theorem SlotOk.of_unstamped (h : SlotOk c ps i x n) (hc : c ≠ some i) (ht : (ps t).unstamped = some i) :
    n = (ps t).slot := by
  unfold SlotOk at h; rw [if_neg hc] at h; exact h.1 t ht

theorem SlotOk.of_stamped (h : SlotOk c ps i x n) (hc : c ≠ some i) (hs : Stamped ps i) : n = ⟨i, x⟩ := by
  unfold SlotOk at h; rw [if_neg hc] at h; exact h.2 hs

/-- 他の index の stamp を消し始めても終えても、`i` の slot のあるべき姿は変わらない。 -/
theorem SlotOk.clearing_ne (h : SlotOk c ps i x n) (hc : c ≠ some i) (hc' : c' ≠ some i) :
    SlotOk c' ps i x n := by
  unfold SlotOk at h ⊢; rw [if_neg hc] at h; rwa [if_neg hc']

/-- index `i` に触らない producer の一歩は、`i` の slot のあるべき姿を変えない。 -/
theorem SlotOk.update_ne (h : SlotOk c ps i x n) (h₁ : (ps t).unstamped ≠ some i)
    (h₂ : pc.unstamped ≠ some i) : SlotOk c (Function.update ps t pc) i x n := by
  unfold SlotOk at h ⊢
  split_ifs at h ⊢
  · exact h
  · refine ⟨fun t' ht' => ?_, fun hs => h.2 (hs.of_update h₁)⟩
    by_cases he : t' = t
    · subst he; simp [h₂] at ht'
    · rw [Function.update_noteq he] at ht' ⊢; exact h.1 t' ht'

end Producers

/-! ## thread が覚えている値 -/

/-- producer の program counter が覚えている値と、cursor、窓の先頭、履歴との関係。
読んだ `p_index` は古くてもよい。他の producer が先に claim していれば CAS が失敗する。 -/
def ProducerOk (prod seq lo cap : Nat) (claimed : List T) : ProducerPc T → Prop
  | .idle | .loadProducer _ => True
  | .loadConsumer _ p => p ≤ prod
  | .loadId _ p => p ≤ prod ∧ (p = prod → p < cap ∨ p - cap < seq)
  | .compareExchange _ p => p ≤ prod ∧ (p = prod → p < lo + cap)
  | .writeValue v p | .storeId v p => p < prod ∧ claimed[p - 1]? = some v

/-- consumer の program counter が覚えている値と、cursor、stamp 済みの index との関係。
`drain` が取り出した payload はいつもあり、panic するのは spin の上限だけである。 -/
def ConsumerOk (seq prod : Nat) (stamped : Nat → Prop) : ConsumerPc T → Prop
  | .idle | .pollLoadSeq _ | .drainLoadProducer _ => True
  | .pollLoadProducer _ s => s = seq
  | .pollLoadId _ s => s = seq ∧ s < prod
  | .pollStoreSeq s => s = seq ∧ s < prod ∧ stamped s
  | .pollTake s => seq = s + 1 ∧ s < prod ∧ stamped s
  | .pollClear s _ => seq = s + 1 ∧ s < prod
  | .drainLoadSeq _ p => seq ≤ p ∧ p ≤ prod
  | .drainStoreSeq s r => s = seq ∧ s + r ≤ prod
  | .drainLoadId s r i _ => seq = s + r ∧ i < r ∧ s + r ≤ prod
  | .drainTake s r i => seq = s + r ∧ i < r ∧ s + r ≤ prod ∧ stamped (s + i)
  | .drainClear s r i v => seq = s + r ∧ i < r ∧ s + r ≤ prod ∧ v.isSome
  | .panicked r => r ≠ .foundNone

section Ok

variable {prod seq lo cap : Nat} {claimed : List T} {pc : ProducerPc T}

/-- consumer が進んでも、producer の覚えている値は正しいままである。 -/
theorem ProducerOk.mono {seq' lo' : Nat} (h : ProducerOk prod seq lo cap claimed pc) (hs : seq ≤ seq')
    (hlo : lo ≤ lo') : ProducerOk prod seq' lo' cap claimed pc := by
  cases pc with
  | loadId _ p => exact ⟨h.1, fun he => (h.2 he).imp id (by omega)⟩
  | compareExchange _ p => exact ⟨h.1, fun he => by have := h.2 he; omega⟩
  | _ => exact h

/-- stamp 待ちの index は cursor より手前にある。 -/
theorem ProducerOk.unstamped_lt {p : Nat} (h : ProducerOk prod seq lo cap claimed pc)
    (hp : pc.unstamped = some p) : p < prod := by
  cases pc <;> simp only [ProducerPc.unstamped, reduceCtorEq, Option.some.injEq] at hp <;>
    exact hp ▸ h.1

/-- 他の producer の claim：cursor が一つ進み、履歴が一つ伸びる。 -/
theorem ProducerOk.claim (v : T) (h : ProducerOk prod seq lo cap claimed pc) :
    ProducerOk (prod + 1) seq lo cap (claimed ++ [v]) pc := by
  cases pc with
  | idle | loadProducer => trivial
  | loadConsumer _ p => exact Nat.le_succ_of_le h
  | loadId _ p => exact ⟨Nat.le_succ_of_le h.1, fun he => by have := h.1; omega⟩
  | compareExchange _ p => exact ⟨Nat.le_succ_of_le h.1, fun he => by have := h.1; omega⟩
  | writeValue _ p | storeId _ p =>
    exact ⟨Nat.lt_succ_of_lt h.1,
      (List.getElem?_append_left (List.getElem?_eq_some_iff.1 h.2).1).trans h.2⟩

/-- producer が進んでも、consumer の覚えている値は正しいままである。 -/
theorem ConsumerOk.mono {prod' : Nat} {st st' : Nat → Prop} {c : ConsumerPc T}
    (h : ConsumerOk seq prod st c) (hp : prod ≤ prod') (hst : ∀ s, s < prod → st s → st' s) :
    ConsumerOk seq prod' st' c := by
  cases c with
  | pollLoadId _ s => exact ⟨h.1, Nat.lt_of_lt_of_le h.2 hp⟩
  | pollStoreSeq s => exact ⟨h.1, Nat.lt_of_lt_of_le h.2.1 hp, hst s h.2.1 h.2.2⟩
  | pollTake s => exact ⟨h.1, Nat.lt_of_lt_of_le h.2.1 hp, hst s h.2.1 h.2.2⟩
  | pollClear s _ => exact ⟨h.1, Nat.lt_of_lt_of_le h.2 hp⟩
  | drainLoadSeq _ p => exact ⟨h.1, Nat.le_trans h.2 hp⟩
  | drainStoreSeq s r => exact ⟨h.1, Nat.le_trans h.2 hp⟩
  | drainLoadId s r i _ => exact ⟨h.1, h.2.1, Nat.le_trans h.2.2 hp⟩
  | drainTake s r i =>
    exact ⟨h.1, h.2.1, Nat.le_trans h.2.2.1 hp, hst _ (by have := h.2.1; have := h.2.2.1; omega) h.2.2.2⟩
  | drainClear s r i v => exact ⟨h.1, h.2.1, Nat.le_trans h.2.2.1 hp, h.2.2.2⟩
  | _ => exact h

/-- 次に取る index は cursor を越えない。 -/
theorem ConsumerOk.next_le {st : Nat → Prop} {c : ConsumerPc T} (h : ConsumerOk seq prod st c) :
    c.next seq ≤ seq := by
  cases c with
  | pollTake s => exact h.1 ▸ Nat.le_succ s
  | pollClear s _ => exact Nat.le_of_eq h.1.symm
  | drainLoadId s r i _ => obtain ⟨h1, h2, -⟩ := h; simp only [ConsumerPc.next]; omega
  | drainTake s r i => obtain ⟨h1, h2, -⟩ := h; simp only [ConsumerPc.next]; omega
  | drainClear s r i _ => obtain ⟨h1, h2, -⟩ := h; simp only [ConsumerPc.next]; omega
  | _ => exact Nat.le_refl _

end Ok

/-! ## 不変量 -/

/-- 到達可能な状態で成り立つこと。`nx` は consumer が次に取る index である。 -/
structure Inv (σ : State T) (nx : Nat) : Prop where
  pow2 : σ.queue.capacity.isPowerOfTwo
  mask : σ.queue.mask = σ.queue.capacity - 1
  claimed_length : σ.queue.producer = σ.claimed.length + 1
  next_eq : σ.consumerPc.nextOr nx σ.queue.sequenceNumber = nx
  next_le : nx ≤ σ.queue.sequenceNumber
  one_le : 1 ≤ σ.consumerPc.lo nx
  seq_le : σ.queue.sequenceNumber ≤ σ.queue.producer
  unstamped_next : ∀ t p, (σ.producers t).unstamped = some p → nx ≤ p
  unstamped_inj : ∀ t t' p, (σ.producers t).unstamped = some p → (σ.producers t').unstamped = some p →
    t = t'
  taken : σ.taken = Spsc.takenSpec σ.claimed (nx - 1)
  slots : Slots σ.queue.ringBuffer σ.queue.capacity (σ.consumerPc.lo nx) σ.queue.producer
    fun i => σ.queue.ringBuffer (i % σ.queue.capacity)
  live : ∀ i, σ.consumerPc.lo nx ≤ i → i < σ.queue.producer →
    SlotOk σ.consumerPc.clearing σ.producers i σ.claimed[i - 1]?
      (σ.queue.ringBuffer (i % σ.queue.capacity))
  producer : ∀ t, ProducerOk σ.queue.producer σ.queue.sequenceNumber (σ.consumerPc.lo nx)
    σ.queue.capacity σ.claimed (σ.producers t)
  consumer : ConsumerOk σ.queue.sequenceNumber σ.queue.producer (Stamped σ.producers) σ.consumerPc

variable {σ : State T} {nx : Nat}

theorem Inv.pos_eq (h : Inv σ nx) (i : Nat) : σ.queue.pos i = i % σ.queue.capacity := by
  rw [RingQueue.pos, h.mask, and_mask_eq_mod h.pow2]

/-- 窓の中の二つの index の slot はぶつからない。 -/
theorem Inv.pos_ne (h : Inv σ nx) {i x : Nat} (hi₁ : σ.consumerPc.lo nx ≤ i)
    (hi₂ : i < σ.queue.producer) (hx₁ : σ.consumerPc.lo nx ≤ x)
    (hx₂ : x < σ.queue.producer) (hne : i ≠ x) : i % σ.queue.capacity ≠ σ.queue.pos x :=
  fun he => hne (mod_injOn_window h.slots.window hi₁ hi₂ hx₁ hx₂ (he.trans (h.pos_eq x)))

/-- 窓の中の index の slot は、あるべき姿をしている。 -/
theorem Inv.read (h : Inv σ nx) {i : Nat} (h₁ : σ.consumerPc.lo nx ≤ i)
    (h₂ : i < σ.queue.producer) :
    SlotOk σ.consumerPc.clearing σ.producers i σ.claimed[i - 1]? (σ.queue.ringBuffer (σ.queue.pos i)) := by
  rw [h.pos_eq]; exact h.live i h₁ h₂

/-- consumer が覚えている index から、次に取る index が決まる。 -/
theorem Inv.next_of (h : Inv σ nx) {c : ConsumerPc T} (hpc : σ.consumerPc = c) :
    c.nextOr nx σ.queue.sequenceNumber = nx :=
  hpc ▸ h.next_eq

theorem Inv.clearing_next (h : Inv σ nx) {k : Nat} (hk : σ.consumerPc.clearing = some k) : nx = k + 1 :=
  h.next_eq.symm.trans (ConsumerPc.nextOr_of_clearing hk _ _)

theorem Inv.lo_le_next (h : Inv σ nx) : σ.consumerPc.lo nx ≤ nx := by
  cases hc : σ.consumerPc.clearing with
  | none => exact Nat.le_of_eq (ConsumerPc.lo_of_clearing_none hc nx)
  | some k => rw [ConsumerPc.lo_of_clearing hc, h.clearing_next hc]; exact Nat.le_succ k

theorem Inv.one_le_next (h : Inv σ nx) : 1 ≤ nx := Nat.le_trans h.one_le h.lo_le_next

/-- stamp 待ちの index は、consumer が stamp を消している index ではない。 -/
theorem Inv.not_clearing {t p : Nat} (h : Inv σ nx) (hp : (σ.producers t).unstamped = some p) :
    σ.consumerPc.clearing ≠ some p := fun he => by
  have := h.unstamped_next t p hp
  have := h.clearing_next he
  omega

/-- index `p` で stamp を待つ producer は一つだけなので、producer `t` の program counter だけを書き換えた後も、
`p` で stamp を待つのは `t` だけである。 -/
theorem Inv.eq_of_update_unstamped (h : Inv σ nx) {t t' p : Nat} {pc : ProducerPc T}
    (hu : (σ.producers t).unstamped = some p)
    (ht' : (Function.update σ.producers t pc t').unstamped = some p) : t' = t := by
  by_contra he
  rw [Function.update_noteq he] at ht'
  exact he (h.unstamped_inj t' t p ht' hu)

/-- 次に取る index が stamp 待ちなら、consumer はまだ cursor を進めていない。
`poll` は stamp を見てから cursor を進めるのでいつも成り立つ。`drain` は先に cursor を進めるので成り立たない。 -/
def HeadOk (σ : State T) (nx : Nat) : Prop :=
  ∀ t, (σ.producers t).unstamped = some nx → nx = σ.queue.sequenceNumber

/-- consumer が `drain` の途中になく、panic したなら `poll` の spin の上限による。 -/
def ConsumerPc.Polling : ConsumerPc T → Prop
  | .idle | .pollLoadSeq _ | .pollLoadProducer _ _ | .pollLoadId _ _ | .pollStoreSeq _ | .pollTake _
  | .pollClear _ _ => True
  | .panicked r => r = .gotStuck
  | _ => False

theorem Inv.headOk (h : Inv σ nx) (hp : σ.consumerPc.Polling) : HeadOk σ nx := fun t ht => by
  have hok := h.consumer
  have hnx := h.next_eq
  cases hc : σ.consumerPc <;> rw [hc] at hok hnx hp <;> simp only [ConsumerPc.nextOr, ConsumerPc.next] at hnx
  case pollTake s => exact absurd (hnx ▸ ht) (hok.2.2 t)
  case pollClear s v => exact hnx.symm.trans hok.1.symm
  case panicked r => subst hp; exact hnx.symm
  all_goals first | exact hnx.symm | exact (hp : False).elim

/-- 次に取る index が窓の中にあって stamp 済みなら、slot には claim した値が stamp 付きで入っている。 -/
theorem Inv.read_next (h : Inv σ nx) (h₁ : σ.consumerPc.clearing = none) (hxp : nx < σ.queue.producer)
    (hst : Stamped σ.producers nx) : σ.queue.ringBuffer (σ.queue.pos nx) = ⟨nx, σ.claimed[nx - 1]?⟩ :=
  (h.read (Nat.le_of_eq (ConsumerPc.lo_of_clearing_none h₁ nx)) hxp).of_stamped (by simp [h₁]) hst

/-- 次に取る index の slot の stamp がその index なら、claim した producer は stamp を書き終えている。 -/
theorem Inv.stamped_of_id (h : Inv σ nx) (h₁ : σ.consumerPc.clearing = none) (hxp : nx < σ.queue.producer)
    (hid : (σ.queue.ringBuffer (σ.queue.pos nx)).id = nx) : Stamped σ.producers nx := fun t ht => by
  have h1 := h.one_le_next
  rw [(h.read (Nat.le_of_eq (ConsumerPc.lo_of_clearing_none h₁ nx)) hxp).of_unstamped (by simp [h₁]) ht]
    at hid
  cases hpc : σ.producers t <;> simp [hpc, ProducerPc.slot] at hid <;> omega

theorem init_inv (queueSize : Nat) : Inv (init queueSize : State T) 1 where
  pow2 := roundToPowerOfTwo_isPowerOfTwo queueSize
  mask := rfl
  claimed_length := rfl
  next_eq := rfl
  next_le := Nat.le_refl 1
  one_le := Nat.le_refl 1
  seq_le := Nat.le_refl 1
  unstamped_next := by simp [init, ProducerPc.unstamped]
  unstamped_inj := by simp [init, ProducerPc.unstamped]
  taken := rfl
  slots := Slots.congr (ringAt_new queueSize).holds fun i h₁ h₂ => by
    simp [init, RingQueue.new, ConsumerPc.lo, ConsumerPc.clearing] at h₁ h₂; omega
  live i h₁ h₂ := by
    simp [init, RingQueue.new, ConsumerPc.lo, ConsumerPc.clearing] at h₁ h₂; omega
  producer _ := trivial
  consumer := trivial

/-! ## producer の一歩 -/

/-- claim の前後で、producer の program counter（と返り値）だけが変わる一歩。 -/
theorem Inv.setProducer (h : Inv σ nx) {t : Nat} {pc : ProducerPc T} (rs : List (Reply T))
    (h₁ : (σ.producers t).unstamped = none) (h₂ : pc.unstamped = none)
    (hok : ProducerOk σ.queue.producer σ.queue.sequenceNumber (σ.consumerPc.lo nx)
      σ.queue.capacity σ.claimed pc) :
    Inv { σ with producers := Function.update σ.producers t pc, replies := rs } nx := by
  have hu : ∀ t' p, (Function.update σ.producers t pc t').unstamped = some p →
      (σ.producers t').unstamped = some p := fun t' p hp => by
    by_cases he : t' = t
    · subst he; simp [h₂] at hp
    · rwa [Function.update_noteq he] at hp
  exact { h with
    unstamped_next := fun t' p hp => h.unstamped_next t' p (hu t' p hp)
    unstamped_inj := fun t₁ t₂ p hp₁ hp₂ => h.unstamped_inj t₁ t₂ p (hu _ _ hp₁) (hu _ _ hp₂)
    live := fun i h₁' h₂' => (h.live i h₁' h₂').update_ne (by simp [h₁]) (by simp [h₂])
    producer := fun t' => by
      by_cases he : t' = t
      · subst he; simpa using hok
      · simpa [Function.update_noteq he] using h.producer t'
    consumer := h.consumer.mono (Nat.le_refl _) fun _ _ hs => hs.update (by simp [h₂]) }

/--
**窓は `capacity` を超えない。**

窓がいっぱい（`producer = lo + capacity`）なら、producer が `id` を読む slot は窓の先頭 `lo` の slot である。
先頭が stamp 済みか、stamp を消している途中なら、`id` は `lo ≥ 1` である。先頭が stamp 待ちなら、
`HeadOk` のもとでは `sequence_number = lo` なので、容量の検査 `p - capacity < c` が通っていない。
-/
theorem Inv.room (h : Inv σ nx) (hhead : HeadOk σ nx) {t p : Nat} {v : T} (hpc : σ.producers t = .loadId v p)
    (hid : (σ.queue.ringBuffer (σ.queue.pos p)).id = 0) (hp : p = σ.queue.producer) :
    p < σ.consumerPc.lo nx + σ.queue.capacity := by
  have hcap : p < σ.queue.capacity ∨ p - σ.queue.capacity < σ.queue.sequenceNumber := by
    have := h.producer t; rw [hpc] at this; exact this.2 hp
  have hw := h.slots.window
  have h1 := h.one_le
  refine Nat.lt_of_not_le fun hge => ?_
  have hpl : p = σ.consumerPc.lo nx + σ.queue.capacity := by omega
  have hslot := h.read (Nat.le_refl _) (by have := Nat.pos_of_isPowerOfTwo h.pow2; omega)
  rw [show σ.queue.pos (σ.consumerPc.lo nx) = σ.queue.pos p by
    rw [h.pos_eq, h.pos_eq, hpl, Nat.add_mod_right]] at hslot
  by_cases hc : σ.consumerPc.clearing = some (σ.consumerPc.lo nx)
  · simp only [hslot.of_clearing hc] at hid; omega
  by_cases hst : Stamped σ.producers (σ.consumerPc.lo nx)
  · simp only [hslot.of_stamped hc hst] at hid; omega
  obtain ⟨t', ht'⟩ : ∃ t', (σ.producers t').unstamped = some (σ.consumerPc.lo nx) := by
    simpa [Stamped] using hst
  have hlo : σ.consumerPc.lo nx = nx := Nat.le_antisymm h.lo_le_next (h.unstamped_next t' _ ht')
  have hseq := hhead t' (hlo ▸ ht')
  omega

/-- claim：CAS が成功して cursor が一つ進み、窓が一つ伸びる。新しい index の slot は空のままである。 -/
theorem Inv.claim (h : Inv σ nx) {t p : Nat} {v : T} (hpc : σ.producers t = .compareExchange v p)
    (hp : σ.queue.producer = p) :
    Inv { σ with queue := { σ.queue with producer := p + 1 },
                 producers := Function.update σ.producers t (.writeValue v p),
                 claimed := σ.claimed ++ [v] } nx := by
  have hroom : p < σ.consumerPc.lo nx + σ.queue.capacity := by
    have := h.producer t; rw [hpc] at this; exact this.2 hp.symm
  have hlen := h.claimed_length
  have hnext := h.next_le
  have hseq := h.seq_le
  have hlo := h.lo_le_next
  have h1 := h.one_le
  have hlt : ∀ t' q, (σ.producers t').unstamped = some q → q < p := fun t' q hq =>
    hp ▸ (h.producer t').unstamped_lt hq
  have hclr : σ.consumerPc.clearing ≠ some p := fun he => by
    have := h.clearing_next he; omega
  have hempty : σ.queue.ringBuffer (p % σ.queue.capacity) = ⟨0, none⟩ :=
    h.slots.out (Nat.pos_of_isPowerOfTwo h.pow2) (by omega) hroom
  have hu : ∀ t' q, (Function.update σ.producers t (.writeValue v p) t').unstamped = some q →
      (t' = t ∧ q = p) ∨ (σ.producers t').unstamped = some q := fun t' q hq => by
    by_cases he : t' = t
    · subst he; simp [ProducerPc.unstamped] at hq; exact .inl ⟨rfl, hq.symm⟩
    · rw [Function.update_noteq he] at hq; exact .inr hq
  refine { h with
    claimed_length := by simp only [List.length_append, List.length_singleton]; omega
    seq_le := Nat.le_succ_of_le (hp ▸ hseq)
    unstamped_next := fun t' q hq => ?_
    unstamped_inj := fun t₁ t₂ q hq₁ hq₂ => ?_
    taken := h.taken.trans (Spsc.takenSpec_append _ _ (by omega)).symm
    slots := by
      dsimp only
      rw [← hp]
      exact h.slots.grow (by omega) (by rw [hp]; exact hempty) fun _ _ _ => rfl
    live := fun i h₁ h₂ => ?_
    producer := fun t' => ?_
    consumer := h.consumer.mono (Nat.le_succ_of_le (Nat.le_of_eq hp)) fun s hs hst =>
      hst.update (by simp [ProducerPc.unstamped]; omega) }
  · rcases hu t' q hq with ⟨-, rfl⟩ | hq
    · exact Nat.le_trans hnext (hp ▸ hseq)
    · exact h.unstamped_next t' q hq
  · rcases hu t₁ q hq₁ with ⟨rfl, rfl⟩ | h₁
    · rcases hu t₂ _ hq₂ with ⟨rfl, -⟩ | h₂
      · rfl
      · exact absurd (hlt t₂ _ h₂) (Nat.lt_irrefl _)
    · rcases hu t₂ q hq₂ with ⟨rfl, rfl⟩ | h₂
      · exact absurd (hlt t₁ _ h₁) (Nat.lt_irrefl _)
      · exact h.unstamped_inj t₁ t₂ q h₁ h₂
  · dsimp only at h₁ h₂ ⊢
    rcases Nat.lt_or_ge i p with hi | hi
    · rw [List.getElem?_append_left (by omega)]
      exact (h.live i h₁ (hp ▸ hi)).update_ne (by rw [hpc]; simp [ProducerPc.unstamped])
        (by simp [ProducerPc.unstamped]; omega)
    · obtain rfl : i = p := by omega
      rw [hempty]
      unfold SlotOk
      rw [if_neg hclr]
      refine ⟨fun t' ht' => ?_, fun hs => absurd (hs t) (by simp [ProducerPc.unstamped])⟩
      rcases hu t' _ ht' with ⟨rfl, -⟩ | ht'
      · simp [ProducerPc.slot]
      · exact absurd (hlt t' _ ht') (Nat.lt_irrefl _)
  · dsimp only
    by_cases he : t' = t
    · subst he
      rw [Function.update_same]
      exact ⟨Nat.lt_succ_self p, by rw [show p - 1 = σ.claimed.length by omega]; simp⟩
    · rw [Function.update_noteq he, ← hp]
      exact (h.producer t').claim v

/-- producer が payload を書こうとしている slot は空である。前の周回の payload はもう取り出されている。 -/
theorem Inv.write_slot (h : Inv σ nx) {t p : Nat} {v : T} (hpc : σ.producers t = .writeValue v p) :
    σ.queue.ringBuffer (σ.queue.pos p) = ⟨0, none⟩ := by
  have hu : (σ.producers t).unstamped = some p := hpc ▸ rfl
  have := h.unstamped_next t p hu
  have := h.lo_le_next
  rw [(h.read (by omega) ((h.producer t).unstamped_lt hu)).of_unstamped (h.not_clearing hu) hu, hpc]
  rfl

/-- stamp を書いていない producer の program counter だけが変わり、index `p` の slot だけが書き換わる一歩。
payload を書く一歩と stamp を書く一歩がこれにあたる。 -/
theorem Inv.setSlot (h : Inv σ nx) {t p : Nat} (hu : (σ.producers t).unstamped = some p)
    (ring : Nat → Node T) (hring : ∀ j, j ≠ p % σ.queue.capacity → ring j = σ.queue.ringBuffer j)
    (pc : ProducerPc T) (hpc : pc.unstamped = some p ∨ pc.unstamped = none)
    (hslot : SlotOk σ.consumerPc.clearing (Function.update σ.producers t pc) p σ.claimed[p - 1]?
      (ring (p % σ.queue.capacity)))
    (hok : ProducerOk σ.queue.producer σ.queue.sequenceNumber (σ.consumerPc.lo nx)
      σ.queue.capacity σ.claimed pc)
    (rs : List (Reply T)) :
    Inv { σ with queue := { σ.queue with ringBuffer := ring },
                 producers := Function.update σ.producers t pc, replies := rs } nx := by
  have hp := (h.producer t).unstamped_lt hu
  have hnp := h.unstamped_next t p hu
  have hlo := h.lo_le_next
  have hsub : ∀ t' q, (Function.update σ.producers t pc t').unstamped = some q →
      (σ.producers t').unstamped = some q := fun t' q hq => by
    by_cases he : t' = t
    · subst he; rw [Function.update_same] at hq
      rcases hpc with hpc | hpc <;> rw [hpc] at hq <;> cases hq; exact hu
    · rwa [Function.update_noteq he] at hq
  refine { h with
    unstamped_next := fun t' q hq => h.unstamped_next t' q (hsub t' q hq)
    unstamped_inj := fun t₁ t₂ q hq₁ hq₂ => h.unstamped_inj t₁ t₂ q (hsub _ _ hq₁) (hsub _ _ hq₂)
    slots := h.slots.self_update (by omega) hp hring
    live := fun i h₁ h₂ => ?_
    producer := fun t' => ?_
    consumer := h.consumer.mono (Nat.le_refl _) fun s hs hst t' hq => hst t' (hsub t' s hq) }
  · dsimp only at h₁ h₂ ⊢
    by_cases hi : i = p
    · subst hi; exact hslot
    · have hne : some p ≠ some i := fun he => hi (Option.some.inj he).symm
      rw [hring _ (fun he => h.pos_ne h₁ h₂ (by omega) hp hi (he.trans (h.pos_eq p).symm))]
      exact (h.live i h₁ h₂).update_ne (by rw [hu]; exact hne)
        (by rcases hpc with hpc | hpc <;> rw [hpc] <;> simp [hne])
  · dsimp only
    by_cases he : t' = t
    · subst he; rw [Function.update_same]; exact hok
    · rw [Function.update_noteq he]; exact h.producer t'

/-- payload を書く。claim した index の slot は空で、そこに claim した値が入る。 -/
theorem Inv.write (h : Inv σ nx) {t p : Nat} {v : T} (hpc : σ.producers t = .writeValue v p) :
    Inv { σ with queue := σ.queue.setValue (σ.queue.pos p) (some v),
                 producers := Function.update σ.producers t (.storeId v p) } nx := by
  have hu : (σ.producers t).unstamped = some p := hpc ▸ rfl
  have hok := h.producer t
  rw [hpc] at hok
  refine h.setSlot hu (σ.queue.setValue (σ.queue.pos p) (some v)).ringBuffer
    (fun j hj => by rw [RingQueue.setValue_ringBuffer, if_neg (by rwa [h.pos_eq])]) (.storeId v p)
    (.inl rfl) ?_ hok σ.replies
  rw [← h.pos_eq, RingQueue.setValue_ringBuffer, if_pos rfl, h.write_slot hpc]
  unfold SlotOk
  rw [if_neg (h.not_clearing hu)]
  refine ⟨fun t' ht' => ?_, fun hs => absurd (hs t) (by simp [ProducerPc.unstamped])⟩
  obtain rfl := h.eq_of_update_unstamped hu ht'
  simp [ProducerPc.slot]

/-- stamp を書く。slot が claim した値と index を持つようになり、`offer` は `true` を返す。 -/
theorem Inv.stamp (h : Inv σ nx) {t p : Nat} {v : T} (hpc : σ.producers t = .storeId v p) :
    Inv { σ with queue := σ.queue.setId (σ.queue.pos p) p, producers := Function.update σ.producers t .idle,
                 replies := σ.replies ++ [.offered true] } nx := by
  have hu : (σ.producers t).unstamped = some p := hpc ▸ rfl
  have hv : σ.claimed[p - 1]? = some v := by have := h.producer t; rw [hpc] at this; exact this.2
  have hnp := h.unstamped_next t p hu
  have := h.lo_le_next
  have hread := (h.read (by omega) ((h.producer t).unstamped_lt hu)).of_unstamped (h.not_clearing hu) hu
  refine h.setSlot hu (σ.queue.setId (σ.queue.pos p) p).ringBuffer
    (fun j hj => by rw [RingQueue.setId_ringBuffer, if_neg (by rwa [h.pos_eq])]) .idle
    (.inr rfl) ?_ trivial _
  rw [← h.pos_eq, RingQueue.setId_ringBuffer, if_pos rfl, hread, hpc]
  unfold SlotOk
  rw [if_neg (h.not_clearing hu)]
  refine ⟨fun t' ht' => ?_, fun _ => by simp [ProducerPc.slot, hv]⟩
  obtain rfl := h.eq_of_update_unstamped hu ht'
  simp [ProducerPc.unstamped] at ht'

/-- producer の一歩は不変量を保つ。 -/
theorem Inv.producer_step (h : Inv σ nx) (t : Nat)
    (hhead : ∀ v p, σ.producers t = .loadId v p → HeadOk σ nx) :
    Inv (stepProducer t σ) nx := by
  have hok := h.producer t
  cases hpc : σ.producers t with
  | idle => simpa [stepProducer, hpc] using h
  | loadProducer v =>
    simp only [stepProducer, hpc]
    exact h.setProducer σ.replies (hpc ▸ rfl) rfl (Nat.le_refl _)
  | loadConsumer v p =>
    rw [hpc] at hok
    simp only [stepProducer, hpc]
    split
    · exact h.setProducer σ.replies (hpc ▸ rfl) rfl ⟨hok, fun _ => ‹_›⟩
    · exact h.setProducer _ (hpc ▸ rfl) rfl trivial
  | loadId v p =>
    rw [hpc] at hok
    simp only [stepProducer, hpc]
    split
    · exact h.setProducer σ.replies (hpc ▸ rfl) rfl ⟨hok.1, h.room (hhead v p hpc) hpc ‹_›⟩
    · exact h.setProducer σ.replies (hpc ▸ rfl) rfl trivial
  | compareExchange v p =>
    simp only [stepProducer, hpc]
    split
    · exact h.claim hpc ‹_›
    · exact h.setProducer σ.replies (hpc ▸ rfl) rfl trivial
  | writeValue v p => simp only [stepProducer, hpc]; exact h.write hpc
  | storeId v p => simp only [stepProducer, hpc]; exact h.stamp hpc

/-! ## consumer の一歩 -/

/-- stamp を消している途中でない consumer の program counter と cursor だけが変わる一歩。
load、cursor の store、値を返して idle に戻る一歩、spin の panic がこれにあたる。次に取る index は変わらない。 -/
theorem Inv.setConsumer (h : Inv σ nx) {c : ConsumerPc T} (seq : Nat) (rs : List (Reply T))
    (h₁ : σ.consumerPc.clearing = none) (h₂ : c.clearing = none)
    (hseq : σ.queue.sequenceNumber ≤ seq) (hsp : seq ≤ σ.queue.producer) (hnext : c.nextOr nx seq = nx)
    (hok : ConsumerOk seq σ.queue.producer (Stamped σ.producers) c) :
    Inv { σ with queue := { σ.queue with sequenceNumber := seq }, consumerPc := c, replies := rs } nx := by
  have hlo : c.lo nx = σ.consumerPc.lo nx := by
    rw [ConsumerPc.lo_of_clearing_none h₁, ConsumerPc.lo_of_clearing_none h₂]
  refine { h with
    next_eq := hnext
    next_le := Nat.le_trans h.next_le hseq
    one_le := by dsimp only; rw [hlo]; exact h.one_le
    seq_le := hsp
    slots := by dsimp only; rw [hlo]; exact h.slots
    live := fun i h₁' h₂' => ?_
    producer := fun t => by dsimp only; rw [hlo]; exact (h.producer t).mono hseq (Nat.le_refl _)
    consumer := hok }
  dsimp only at h₁' h₂' ⊢
  rw [hlo] at h₁'
  rw [h₂, ← h₁]
  exact h.live i h₁' h₂'

/-- cursor を書かない `Inv.setConsumer`。 -/
theorem Inv.setConsumerPc (h : Inv σ nx) {c : ConsumerPc T} (rs : List (Reply T))
    (h₁ : σ.consumerPc.clearing = none) (h₂ : c.clearing = none)
    (hnext : c.nextOr nx σ.queue.sequenceNumber = nx)
    (hok : ConsumerOk σ.queue.sequenceNumber σ.queue.producer (Stamped σ.producers) c) :
    Inv { σ with consumerPc := c, replies := rs } nx :=
  h.setConsumer _ rs h₁ h₂ (Nat.le_refl _) h.seq_le hnext hok

/--
payload を取り出す。次に取る index `nx` の slot から claim した値が出てきて、slot には stamp だけが残る。
取り出しの履歴は index `nx` の分だけ伸び、次に取る index は `nx + 1` になる。
-/
theorem Inv.take (h : Inv σ nx) {c : ConsumerPc T} (h₁ : σ.consumerPc.clearing = none)
    (hxp : nx < σ.queue.producer) (hst : Stamped σ.producers nx) (h₂ : c.clearing = some nx)
    (hok : ConsumerOk σ.queue.sequenceNumber σ.queue.producer (Stamped σ.producers) c) :
    Inv { σ with queue := σ.queue.setValue (σ.queue.pos nx) none, consumerPc := c,
                 taken := σ.taken ++ [(nx, (σ.queue.ringBuffer (σ.queue.pos nx)).value)] } (nx + 1) := by
  have hlo : σ.consumerPc.lo nx = nx := ConsumerPc.lo_of_clearing_none h₁ nx
  have hlo' : c.lo (nx + 1) = nx := ConsumerPc.lo_of_clearing h₂ _
  have h1 := h.one_le_next
  have hread := h.read_next h₁ hxp hst
  refine { h with
    next_eq := ConsumerPc.nextOr_of_clearing h₂ _ _
    next_le := ConsumerPc.next_of_clearing h₂ _ ▸ hok.next_le
    one_le := by dsimp only; rw [hlo']; exact h1
    unstamped_next := fun t p hp => ?_
    taken := by
      dsimp only
      rw [h.taken, hread, Nat.add_sub_cancel]
      exact Spsc.takenSpec_pred _ h1
    slots := by
      dsimp only [RingQueue.setValue_capacity, RingQueue.setValue_producer]
      rw [hlo']
      exact (hlo ▸ h.slots).self_update (Nat.le_refl nx) hxp fun j hj => by
        rw [RingQueue.setValue_ringBuffer, if_neg (by rwa [h.pos_eq])]
    live := fun i h₁' h₂' => ?_
    producer := fun t => by
      dsimp only [RingQueue.setValue_sequenceNumber]; rw [hlo', ← hlo]; exact h.producer t
    consumer := hok }
  · have := h.unstamped_next t p hp
    have hne : p ≠ nx := fun he => hst t (he ▸ hp)
    omega
  · dsimp only [RingQueue.setValue_capacity, RingQueue.setValue_producer] at h₁' h₂' ⊢
    rw [hlo', ← hlo] at h₁'
    by_cases hi : i = nx
    · subst hi
      rw [← h.pos_eq, RingQueue.setValue_ringBuffer, if_pos rfl, hread]
      simp [SlotOk, h₂]
    · rw [RingQueue.setValue_ringBuffer, if_neg (h.pos_ne h₁' h₂' (Nat.le_of_eq hlo) hxp hi)]
      exact (h.live i h₁' h₂').clearing_ne (by simp [h₁]) (by simpa [h₂] using Ne.symm hi)

/-- stamp を 0 に戻す。窓の先頭の slot が空になり、窓が一つ縮む。 -/
theorem Inv.clear (h : Inv σ nx) {c : ConsumerPc T} {x : Nat} (h₁ : σ.consumerPc.clearing = some x)
    (h₂ : c.clearing = none) (hnext : c.nextOr nx σ.queue.sequenceNumber = nx)
    (hok : ConsumerOk σ.queue.sequenceNumber σ.queue.producer (Stamped σ.producers) c)
    (rs : List (Reply T)) (as : List T) :
    Inv { σ with queue := σ.queue.setId (σ.queue.pos x) 0, consumerPc := c, replies := rs,
                 acted := as } nx := by
  have hnx : nx = x + 1 := h.clearing_next h₁
  have hlo : σ.consumerPc.lo nx = x := ConsumerPc.lo_of_clearing h₁ nx
  have hlo' : c.lo nx = x + 1 := by rw [ConsumerPc.lo_of_clearing_none h₂, hnx]
  have hxp : x < σ.queue.producer := by have := h.next_le; have := h.seq_le; omega
  have hread : σ.queue.ringBuffer (σ.queue.pos x) = ⟨x, none⟩ :=
    (h.read (hlo ▸ Nat.le_refl x) hxp).of_clearing h₁
  refine { h with
    next_eq := hnext
    one_le := by dsimp only; rw [hlo']; exact Nat.le_add_left 1 x
    slots := by
      dsimp only [RingQueue.setId_capacity, RingQueue.setId_producer]
      rw [hlo']
      refine (hlo ▸ h.slots).shrink hxp (fun j hj => ?_) ?_ fun i hi _ => ?_
      · rw [RingQueue.setId_ringBuffer, if_neg (by rwa [h.pos_eq])]
      · rw [← h.pos_eq, RingQueue.setId_ringBuffer, if_pos rfl, hread]
      · rw [RingQueue.setId_ringBuffer, if_neg (h.pos_ne (by omega) (by omega) (hlo ▸ Nat.le_refl x) hxp
          (by omega))]
    live := fun i h₁' h₂' => ?_
    producer := fun t => by
      dsimp only [RingQueue.setId_sequenceNumber]
      exact (h.producer t).mono (Nat.le_refl _) (by omega)
    consumer := hok }
  dsimp only [RingQueue.setId_capacity, RingQueue.setId_producer] at h₁' h₂' ⊢
  rw [hlo'] at h₁'
  rw [RingQueue.setId_ringBuffer, if_neg (h.pos_ne (by omega) h₂' (hlo ▸ Nat.le_refl x) hxp (by omega))]
  exact (h.live i (by omega) h₂').clearing_ne (by rw [h₁]; simp; omega) (by simp [h₂])

/-- consumer の一歩は不変量を保つ。payload を取り出す一歩では、次に取る index が一つ進む。 -/
theorem Inv.consumer_step (h : Inv σ nx) : ∃ nx', Inv (stepConsumer σ) nx' := by
  have hok := h.consumer
  have hlen := h.claimed_length
  cases hpc : σ.consumerPc <;> rw [hpc] at hok <;> simp only [stepConsumer, hpc]
  case idle => exact ⟨nx, h⟩
  case panicked => exact ⟨nx, h⟩
  case pollLoadSeq i => exact ⟨nx, h.setConsumerPc _ (hpc ▸ rfl) rfl (h.next_of hpc :) rfl⟩
  case pollLoadProducer i s =>
    split
    · exact ⟨nx, h.setConsumerPc _ (hpc ▸ rfl) rfl (h.next_of hpc :) ⟨hok, ‹_›⟩⟩
    · exact ⟨nx, h.setConsumerPc _ (hpc ▸ rfl) rfl (h.next_of hpc :) trivial⟩
  case pollLoadId i s =>
    obtain ⟨hs, hsp⟩ := hok
    obtain rfl : s = nx := hs.trans (h.next_of hpc :)
    split
    · exact ⟨s, h.setConsumerPc _ (hpc ▸ rfl) rfl (h.next_of hpc :)
        ⟨hs, hsp, h.stamped_of_id (hpc ▸ rfl) hsp ‹_›⟩⟩
    · split
      · exact ⟨s, h.setConsumerPc _ (hpc ▸ rfl) rfl (h.next_of hpc :) nofun⟩
      · exact ⟨s, h.setConsumerPc _ (hpc ▸ rfl) rfl (h.next_of hpc :) trivial⟩
  case pollStoreSeq s =>
    exact ⟨nx, h.setConsumer (s + 1) _ (hpc ▸ rfl) rfl (hok.1 ▸ Nat.le_succ s) hok.2.1
      (hok.1.trans (h.next_of hpc :)) ⟨rfl, hok.2⟩⟩
  case pollTake s =>
    obtain rfl : s = nx := (h.next_of hpc :)
    exact ⟨_, h.take (hpc ▸ rfl) hok.2.1 hok.2.2 rfl ⟨hok.1, hok.2.1⟩⟩
  case pollClear s v =>
    exact ⟨nx, h.clear (c := .idle) (hpc ▸ rfl) rfl (hok.1.trans (h.next_of hpc :)) trivial _ _⟩
  case drainLoadProducer limit =>
    exact ⟨nx, h.setConsumerPc _ (hpc ▸ rfl) rfl (h.next_of hpc :) ⟨h.seq_le, Nat.le_refl _⟩⟩
  case drainLoadSeq limit p =>
    split
    · exact ⟨nx, h.setConsumerPc _ (hpc ▸ rfl) rfl (h.next_of hpc :) trivial⟩
    · exact ⟨nx, h.setConsumerPc _ (hpc ▸ rfl) rfl (h.next_of hpc :)
        ⟨rfl, by have := hok.2; omega⟩⟩
  case drainStoreSeq s r =>
    obtain ⟨rfl, hr⟩ := hok
    have hnx : σ.queue.sequenceNumber = nx := (h.next_of hpc :)
    split
    · exact ⟨nx, h.setConsumer _ _ (hpc ▸ rfl) rfl (Nat.le_add_right _ _) hr
        (show _ + 0 = nx from hnx) ⟨rfl, ‹_›, hr⟩⟩
    · exact ⟨nx, h.setConsumer _ _ (hpc ▸ rfl) rfl (Nat.le_add_right _ _) hr
        (show _ + r = nx by omega) trivial⟩
  case drainLoadId s r i f =>
    obtain ⟨hs, hi, hr⟩ := hok
    obtain rfl : s + i = nx := (h.next_of hpc :)
    split
    · exact ⟨_, h.setConsumerPc _ (hpc ▸ rfl) rfl (h.next_of hpc :)
        ⟨hs, hi, hr, h.stamped_of_id (hpc ▸ rfl) (by omega) ‹_›⟩⟩
    · split
      · exact ⟨_, h.setConsumerPc _ (hpc ▸ rfl) rfl rfl nofun⟩
      · exact ⟨_, h.setConsumerPc _ (hpc ▸ rfl) rfl (h.next_of hpc :) ⟨hs, hi, hr⟩⟩
  case drainTake s r i =>
    obtain ⟨hs, hi, hr, hst⟩ := hok
    obtain rfl : s + i = nx := (h.next_of hpc :)
    have h1 := h.one_le_next
    have hread := h.read_next (hpc ▸ rfl) (by omega) hst
    exact ⟨_, h.take (hpc ▸ rfl) (by omega) hst rfl
      ⟨hs, hi, hr, by rw [hread, List.getElem?_eq_getElem (by omega)]; rfl⟩⟩
  case drainClear s r i v =>
    obtain ⟨hs, hi, hr, hv⟩ := hok
    have hnx : s + i + 1 = nx := (h.next_of hpc :)
    cases v with
    | none => simp at hv
    | some t =>
      dsimp only
      split
      · exact ⟨nx, h.clear (c := .drainLoadId s r (i + 1) 0) (hpc ▸ rfl) rfl
          (show s + (i + 1) = nx by omega) ⟨hs, ‹_›, hr⟩ _ _⟩
      · exact ⟨nx, h.clear (c := .idle) (hpc ▸ rfl) rfl (show σ.queue.sequenceNumber = nx by omega)
          trivial _ _⟩

/-! ## 実行の一歩 -/

theorem stepProducer_consumerPc (t : Nat) (σ : State T) : (stepProducer t σ).consumerPc = σ.consumerPc := by
  unfold stepProducer; split <;> dsimp only <;> (try split) <;> rfl

theorem stepProducer_producers_ne {t t' : Nat} (ht : t' ≠ t) (σ : State T) :
    (stepProducer t σ).producers t' = σ.producers t' := by
  unfold stepProducer
  split <;> dsimp only <;> (try split) <;> simp [State.setProducer, Function.update_noteq ht]

theorem stepConsumer_producers (σ : State T) : (stepConsumer σ).producers = σ.producers := by
  unfold stepConsumer; split <;> dsimp only <;> (repeat' split) <;> rfl

/-- どの一歩も不変量を保つ。ただし producer が `id` を読む一歩では `HeadOk` が要る。 -/
theorem Inv.step (h : Inv σ nx) (hhead : ∀ t v p, σ.producers t = .loadId v p → HeadOk σ nx)
    {a : Action T} {σ' : State T} (hs : step σ a = some σ') : ∃ nx', Inv σ' nx' := by
  cases a with
  | call c =>
    cases c with
    | offer t v =>
      simp only [Mpsc.step, Option.ite_none_right_eq_some, Option.some.injEq] at hs
      obtain ⟨hi, rfl⟩ := hs
      exact ⟨nx, h.setProducer σ.replies (by rw [ProducerPc.eq_idle hi]; rfl) rfl trivial⟩
    | poll =>
      simp only [Mpsc.step, Option.ite_none_right_eq_some, Option.some.injEq] at hs
      obtain ⟨hi, rfl⟩ := hs
      exact ⟨nx, h.setConsumerPc σ.replies (by rw [ConsumerPc.eq_idle hi]; rfl) rfl
        (h.next_of (ConsumerPc.eq_idle hi) :) trivial⟩
    | drain limit =>
      simp only [Mpsc.step, Option.ite_none_right_eq_some, Option.some.injEq] at hs
      obtain ⟨hi, rfl⟩ := hs
      exact ⟨nx, h.setConsumerPc σ.replies (by rw [ConsumerPc.eq_idle hi]; rfl) rfl
        (h.next_of (ConsumerPc.eq_idle hi) :) trivial⟩
  | producer t =>
    simp only [Mpsc.step, Option.ite_none_left_eq_some, Option.some.injEq] at hs
    exact ⟨nx, hs.2 ▸ h.producer_step t (hhead t)⟩
  | spuriousFailure t =>
    simp only [Mpsc.step] at hs
    split at hs
    · cases hs
      exact ⟨nx, h.setProducer σ.replies (by rw [‹σ.producers t = _›]; rfl) rfl trivial⟩
    · cases hs
  | consumer =>
    simp only [Mpsc.step, Option.ite_none_left_eq_some, Option.some.injEq] at hs
    exact hs.2 ▸ h.consumer_step

/-! ## `poll` だけを呼ぶ実行 -/

theorem step_of_pollStep {a : Action T} {σ' : State T} (hs : pollStep σ a = some σ') :
    step σ a = some σ' := by
  cases a with
  | call c => cases c with
    | drain => cases hs
    | _ => exact hs
  | _ => exact hs

theorem ConsumerPc.Polling.stepConsumer (hp : σ.consumerPc.Polling) :
    (Mpsc.stepConsumer σ).consumerPc.Polling := by
  unfold Mpsc.stepConsumer
  split <;> dsimp only <;> (repeat' split) <;> simp_all [ConsumerPc.Polling]

/-- `drain` を呼ばない実行の一歩の後も、consumer は `drain` の途中にない。 -/
theorem ConsumerPc.Polling.pollStep (hp : σ.consumerPc.Polling) {a : Action T} {σ' : State T}
    (hs : Mpsc.pollStep σ a = some σ') : σ'.consumerPc.Polling := by
  have hstep := step_of_pollStep hs
  cases a with
  | call c =>
    cases c with
    | offer t v =>
      simp only [step, Option.ite_none_right_eq_some, Option.some.injEq] at hstep
      obtain ⟨-, rfl⟩ := hstep; exact hp
    | poll =>
      simp only [step, Option.ite_none_right_eq_some, Option.some.injEq] at hstep
      obtain ⟨-, rfl⟩ := hstep; trivial
    | drain limit => cases hs
  | producer t =>
    simp only [step, Option.ite_none_left_eq_some, Option.some.injEq] at hstep
    rw [← hstep.2, stepProducer_consumerPc]; exact hp
  | spuriousFailure t =>
    simp only [step] at hstep
    split at hstep
    · cases hstep; exact hp
    · cases hstep
  | consumer =>
    simp only [step, Option.ite_none_left_eq_some, Option.some.injEq] at hstep
    rw [← hstep.2]; exact hp.stepConsumer

/-- `drain` を呼ばない実行で到達する状態はすべて不変量を満たし、consumer は `drain` の途中にない。 -/
theorem pollReach_inv {queueSize : Nat} (hr : Reachable pollStep (init queueSize) σ) :
    ∃ nx, Inv σ nx ∧ σ.consumerPc.Polling :=
  Reachable.induct_inv (P := fun σ => ∃ nx, Inv σ nx ∧ σ.consumerPc.Polling) ⟨1, init_inv queueSize, trivial⟩
    (fun _ _ _ ⟨_, h, hp⟩ hs =>
      (h.step (fun _ _ _ _ => h.headOk hp) (step_of_pollStep hs)).imp fun _ h' => ⟨h', hp.pollStep hs⟩) hr

/--
**`drain` を呼ばない `MpscQueue` の安全性。**
consumer が `poll` だけを呼ぶなら、producer が何個あっても、どの step の混ぜ方でも：

* cursor `producer` は claim した数より一つ大きい。
* 取り出しの履歴は index `1, 2, …` を順に一度ずつ並べたもので、index `k` の payload は index `k` を
  claim した `offer` の値である。取り出した数は claim した数を超えない。
* producer が payload を書こうとしている slot は空である。取られていない payload を上書きしない。
* `poll` が index `s` の stamp を待っているとき、stamp が `s` でないのは、index `s` を claim した
  producer がまだ stamp を書いていないからである。
* panic するなら、stamp を待つ spin の上限による。
-/
theorem mpsc_poll_takes_claimed_payloads {queueSize : Nat} {σ : State T}
    (hr : Reachable pollStep (init queueSize) σ) :
    σ.queue.producer = σ.claimed.length + 1 ∧
    σ.taken = Spsc.takenSpec σ.claimed σ.taken.length ∧ σ.taken.length ≤ σ.claimed.length ∧
    (∀ t v p, σ.producers t = .writeValue v p → σ.queue.ringBuffer (σ.queue.pos p) = ⟨0, none⟩) ∧
    (∀ i s, σ.consumerPc = .pollLoadId i s → (σ.queue.ringBuffer (σ.queue.pos s)).id ≠ s →
      ∃ t, (σ.producers t).unstamped = some s) ∧
    ∀ r, σ.consumerPc = .panicked r → r = .gotStuck := by
  obtain ⟨nx, h, hp⟩ := pollReach_inv hr
  have hlen := h.claimed_length
  have hn : σ.taken.length = nx - 1 := by rw [h.taken, Spsc.takenSpec_length]
  refine ⟨hlen, by rw [hn]; exact h.taken, ?_, fun t v p hpc => h.write_slot hpc, fun i s hpc hid => ?_,
    fun r hpc => ?_⟩
  · have := h.next_le; have := h.seq_le; omega
  · have hok := h.consumer
    rw [hpc] at hok
    obtain rfl : s = nx := hok.1.trans (h.next_of hpc :)
    by_contra hst
    refine hid ?_
    rw [h.read_next (hpc ▸ rfl) hok.2 fun t ht => hst ⟨t, ht⟩]
  · rw [hpc] at hp; exact hp

/-- 容量 2 の queue に二つの producer が `7`、`8` を入れ、consumer が二回 `poll` する実行。
producer 1 の最初の CAS は producer 0 に負けてやり直し、最初の `poll` は producer 0 の stamp を一度待つ。
二回の `poll` は `7`、`8` の順に返す。 -/
def twoProducersPollTrace : List (Action Nat) :=
  [.call (.offer 0 7), .call (.offer 1 8), .producer 0, .producer 1] ++
  List.replicate 3 (.producer 0) ++ List.replicate 9 (.producer 1) ++
  [.call .poll] ++ List.replicate 3 .consumer ++ List.replicate 2 (.producer 0) ++
  List.replicate 6 .consumer ++ [.call .poll] ++ List.replicate 6 .consumer

/-- `twoProducersPollTrace` の後の状態。 -/
def twoProducersPollState : State Nat := (run pollStep (init 2) twoProducersPollTrace).getD (init 2)

theorem twoProducersPollState_safe :
    Reachable pollStep (init 2) twoProducersPollState ∧
    twoProducersPollState.queue.producer = twoProducersPollState.claimed.length + 1 ∧
    twoProducersPollState.taken =
      Spsc.takenSpec twoProducersPollState.claimed twoProducersPollState.taken.length ∧
    twoProducersPollState.taken.length ≤ twoProducersPollState.claimed.length ∧
    (∀ t v p, twoProducersPollState.producers t = .writeValue v p →
      twoProducersPollState.queue.ringBuffer (twoProducersPollState.queue.pos p) = ⟨0, none⟩) ∧
    (∀ i s, twoProducersPollState.consumerPc = .pollLoadId i s →
      (twoProducersPollState.queue.ringBuffer (twoProducersPollState.queue.pos s)).id ≠ s →
      ∃ t, (twoProducersPollState.producers t).unstamped = some s) ∧
    ∀ r, twoProducersPollState.consumerPc = .panicked r → r = .gotStuck :=
  have hr : Reachable pollStep (init 2) twoProducersPollState := Reachable.of_run Reachable.init
    (rfl : run pollStep (init 2) twoProducersPollTrace = some twoProducersPollState)
  ⟨hr, mpsc_poll_takes_claimed_payloads hr⟩

/-! ## `offer` を一つの thread だけが呼ぶ実行 -/

/-- thread 0 のほかの producer は idle のままである。 -/
def Solo (σ : State T) : Prop := ∀ t, t ≠ 0 → σ.producers t = .idle

/-- idle な producer thread は、自分の `offer` の呼び出しのほかの一歩では idle のままである。 -/
theorem step_producers_of_idle {a : Action T} {σ' : State T} {t' : Nat} (hs : step σ a = some σ')
    (hi : σ.producers t' = .idle) (ha : ∀ v, a ≠ .call (.offer t' v)) : σ'.producers t' = .idle := by
  cases a with
  | call c =>
    cases c with
    | offer t v =>
      simp only [Mpsc.step, Option.ite_none_right_eq_some, Option.some.injEq] at hs
      obtain ⟨-, rfl⟩ := hs
      have ht : t' ≠ t := fun he => ha v (he ▸ rfl)
      simpa [State.setProducer, Function.update_noteq ht] using hi
    | poll | drain =>
      simp only [Mpsc.step, Option.ite_none_right_eq_some, Option.some.injEq] at hs
      obtain ⟨-, rfl⟩ := hs; exact hi
  | producer t =>
    simp only [Mpsc.step, Option.ite_none_left_eq_some, Option.some.injEq] at hs
    obtain ⟨hni, rfl⟩ := hs
    have ht : t' ≠ t := fun he => hni (by rw [← he, hi]; rfl)
    rw [stepProducer_producers_ne ht]; exact hi
  | spuriousFailure t =>
    simp only [Mpsc.step] at hs
    split at hs
    · cases hs
      have ht : t' ≠ t := fun he => by rw [he] at hi; rw [hi] at *; contradiction
      simpa [State.setProducer, Function.update_noteq ht] using hi
    · cases hs
  | consumer =>
    simp only [Mpsc.step, Option.ite_none_left_eq_some, Option.some.injEq] at hs
    obtain ⟨-, rfl⟩ := hs; rw [stepConsumer_producers]; exact hi

theorem step_of_soloStep {a : Action T} {σ' : State T} (hs : soloStep σ a = some σ') :
    step σ a = some σ' := by
  cases a with
  | call c => cases c with
    | offer t v =>
      change (if t = 0 then step σ (.call (.offer t v)) else none) = some σ' at hs
      split at hs
      · exact hs
      · cases hs
    | _ => exact hs
  | _ => exact hs

theorem Solo.soloStep (hso : Solo σ) {a : Action T} {σ' : State T} (hs : Mpsc.soloStep σ a = some σ') :
    Solo σ' := fun t' ht' => step_producers_of_idle (step_of_soloStep hs) (hso t' ht') fun v he => by
  subst he
  change (if t' = 0 then step σ (.call (.offer t' v)) else none) = some σ' at hs
  rw [if_neg ht'] at hs
  cases hs

/-- `id` を読んでいる producer が一つだけなら、stamp 待ちの producer はいないので `HeadOk` はいつも成り立つ。 -/
theorem Solo.headOk (hso : Solo σ) {t p : Nat} {v : T} (hpc : σ.producers t = .loadId v p) : HeadOk σ nx :=
  fun t' ht' => absurd ht' <| by
    have ht : t = 0 := by
      by_contra hne; rw [hso t hne] at hpc; cases hpc
    by_cases h0 : t' = 0
    · rw [h0, ← ht, hpc]; simp [ProducerPc.unstamped]
    · rw [hso t' h0]; simp [ProducerPc.unstamped]

/-- `offer` を thread 0 だけが呼ぶ実行で到達する状態はすべて不変量を満たす。 -/
theorem soloReach_inv {queueSize : Nat} (hr : Reachable soloStep (init queueSize) σ) :
    ∃ nx, Inv σ nx ∧ Solo σ :=
  Reachable.induct_inv (P := fun σ => ∃ nx, Inv σ nx ∧ Solo σ) ⟨1, init_inv queueSize, fun _ _ => rfl⟩
    (fun _ _ _ ⟨_, h, hso⟩ hs =>
      (h.step (fun _ _ _ hpc => hso.headOk hpc) (step_of_soloStep hs)).imp fun _ h' =>
        ⟨h', hso.soloStep hs⟩) hr

/--
**producer が一つなら、`drain` を呼んでも `MpscQueue` は payload を失わない。**
`offer` を呼ぶ thread が一つなら、consumer が `poll` と `drain` をどう混ぜても：

* cursor `producer` は claim した数より一つ大きい。
* 取り出しの履歴は index `1, 2, …` を順に一度ずつ並べたもので、index `k` の payload は index `k` を
  claim した `offer` の値である。取り出した数は claim した数を超えない。
* producer が payload を書こうとしている slot は空である。取られていない payload を上書きしない。
* `drain` は `panic!("Found a None!")` に届かない。
-/
theorem mpsc_single_producer_takes_claimed_payloads {queueSize : Nat} {σ : State T}
    (hr : Reachable soloStep (init queueSize) σ) :
    σ.queue.producer = σ.claimed.length + 1 ∧
    σ.taken = Spsc.takenSpec σ.claimed σ.taken.length ∧ σ.taken.length ≤ σ.claimed.length ∧
    (∀ v p, σ.producers 0 = .writeValue v p → σ.queue.ringBuffer (σ.queue.pos p) = ⟨0, none⟩) ∧
    σ.consumerPc ≠ .panicked .foundNone := by
  obtain ⟨nx, h, -⟩ := soloReach_inv hr
  have hlen := h.claimed_length
  have hn : σ.taken.length = nx - 1 := by rw [h.taken, Spsc.takenSpec_length]
  refine ⟨hlen, by rw [hn]; exact h.taken, ?_, fun v p hpc => h.write_slot hpc, fun hpc => ?_⟩
  · have := h.next_le; have := h.seq_le; omega
  · have hok := h.consumer
    rw [hpc] at hok
    exact hok rfl

/-- 容量 1 の queue に producer が `7` を入れ、consumer が `drain(1)` を呼ぶ実行。
`drain` は producer が stamp を書く前に cursor を進め、stamp を一度待つ。stamp の後に始めた `8` の `offer` は、
slot の `7` がまだ取られていないので `id` の検査でやり直す。`drain` は `7` を `act` に渡す。 -/
def soloDrainTrace : List (Action Nat) :=
  [.call (.offer 0 7)] ++ List.replicate 5 (.producer 0) ++
  [.call (.drain 1)] ++ List.replicate 4 .consumer ++ [.producer 0] ++
  [.call (.offer 0 8)] ++ List.replicate 3 (.producer 0) ++ List.replicate 3 .consumer

/-- `soloDrainTrace` の後の状態。 -/
def soloDrainState : State Nat := (run soloStep (init 1) soloDrainTrace).getD (init 1)

example : soloDrainState.taken = [(1, some 7)] ∧ soloDrainState.acted = [7] ∧
    soloDrainState.producers 0 = .loadProducer 8 :=
  ⟨rfl, rfl, rfl⟩

theorem soloDrainState_safe :
    Reachable soloStep (init 1) soloDrainState ∧
    soloDrainState.queue.producer = soloDrainState.claimed.length + 1 ∧
    soloDrainState.taken = Spsc.takenSpec soloDrainState.claimed soloDrainState.taken.length ∧
    soloDrainState.taken.length ≤ soloDrainState.claimed.length ∧
    (∀ v p, soloDrainState.producers 0 = .writeValue v p →
      soloDrainState.queue.ringBuffer (soloDrainState.queue.pos p) = ⟨0, none⟩) ∧
    soloDrainState.consumerPc ≠ .panicked .foundNone :=
  have hr : Reachable soloStep (init 1) soloDrainState := Reachable.of_run Reachable.init
    (rfl : run soloStep (init 1) soloDrainTrace = some soloDrainState)
  ⟨hr, mpsc_single_producer_takes_claimed_payloads hr⟩

end RustCommon.Queue.Mpsc
