import RustCommon.Queue.Capacity
import RustCommon.Queue.MpscSafety
import Mathlib.Logic.Function.Iterate

/-!
# queue：どの thread が誰を待つか

`offer`、`poll`、`drain`、`peek` は lock を取らないが、相手の thread の途中の一歩を待つことがある。
producer は `id == 0` の検査で、consumer が slot の stamp を 0 に戻すのを待つ。consumer は
`node_id == s_index` の検査で、producer が slot に stamp を書くのを待つ。

SPSC では、待つのはこの二つの場合だけである（`spsc_waits_only_on_partner`）。

* consumer が `sequence_number` を進めたのに stamp をまだ消していない index がなければ、
  `offer` は一人で 6 歩のうちに終わる。
* producer が claim したのに stamp をまだ書いていない index がなければ、consumer の呼び出しは
  一人で `3 * capacity + 6` 歩のうちに終わる。

逆に、相手がその途中で止まっていれば、一人で走る thread は終わらない
（`spsc_spins_while_partner_paused`）。

MPSC の consumer の spin には上限がある。claim して stamp を書く前に止まった producer は、
consumer をちょうど上限の回数だけ spin させてから `panic!` させる
（`mpsc_consumer_panics_on_stalled_producer`）。

## 終わることの言い方

一人で走る thread の歩数は `soloRun` の fuel で数える。終わることは、program counter から読む
残りの歩数 `stepsLeft` が一歩ごとに減ることから出す（`soloRun_isSome_of_measure`）。
終わらないことは、相手が止まっている間に一人で回る状態の集まりが閉じていることから出す
（`soloRun_eq_none_of_closed`）。
-/

namespace RustCommon.Queue

variable {T : Type}

namespace Spsc

variable {σ : State T}

/-! ## 一歩が触らないもの -/

/-- producer の一歩は、consumer の program counter と cursor と容量を変えない。 -/
theorem stepProducer_frame (σ : State T) :
    (stepProducer σ).consumerPc = σ.consumerPc ∧
      (stepProducer σ).queue.sequenceNumber = σ.queue.sequenceNumber ∧
      (stepProducer σ).queue.capacity = σ.queue.capacity := by
  unfold stepProducer; split <;> dsimp only <;> (try split) <;> exact ⟨rfl, rfl, rfl⟩

@[simp] theorem stepProducer_consumerPc (σ : State T) : (stepProducer σ).consumerPc = σ.consumerPc :=
  (stepProducer_frame σ).1

@[simp] theorem stepProducer_sequenceNumber (σ : State T) :
    (stepProducer σ).queue.sequenceNumber = σ.queue.sequenceNumber := (stepProducer_frame σ).2.1

@[simp] theorem stepProducer_capacity (σ : State T) :
    (stepProducer σ).queue.capacity = σ.queue.capacity := (stepProducer_frame σ).2.2

/-- consumer の一歩は、producer の program counter と cursor と容量を変えない。 -/
theorem stepConsumer_frame (σ : State T) :
    (stepConsumer σ).producerPc = σ.producerPc ∧ (stepConsumer σ).queue.producer = σ.queue.producer ∧
      (stepConsumer σ).queue.capacity = σ.queue.capacity := by
  unfold stepConsumer; split <;> dsimp only <;> (repeat' split) <;> exact ⟨rfl, rfl, rfl⟩

@[simp] theorem stepConsumer_producerPc (σ : State T) : (stepConsumer σ).producerPc = σ.producerPc :=
  (stepConsumer_frame σ).1

@[simp] theorem stepConsumer_producer (σ : State T) :
    (stepConsumer σ).queue.producer = σ.queue.producer := (stepConsumer_frame σ).2.1

@[simp] theorem stepConsumer_capacity (σ : State T) :
    (stepConsumer σ).queue.capacity = σ.queue.capacity := (stepConsumer_frame σ).2.2

/-- consumer の cursor は戻らない。 -/
theorem Inv.sequenceNumber_le_stepConsumer (h : Inv σ) :
    σ.queue.sequenceNumber ≤ (stepConsumer σ).queue.sequenceNumber := by
  have hc := h.consumer
  cases hpc : σ.consumerPc <;> rw [hpc] at hc <;> simp only [Spsc.stepConsumer, hpc]
  case pollStoreSeq s => exact hc.1 ▸ Nat.le_succ s
  case drainStoreSeq s r => split <;> exact hc.1 ▸ Nat.le_add_right s r
  all_goals (repeat' split) <;> exact Nat.le_refl _

/-! ## 容量の検査を通った producer -/

/-- 容量の検査を通った producer の index は、今の `sequence_number + capacity` より小さい。
`sequence_number` は戻らないので、検査の後も成り立ち続ける。 -/
def RoomOk (σ : State T) : Prop :=
  ∀ v p, σ.producerPc = .loadId v p → p < σ.queue.sequenceNumber + σ.queue.capacity

/-- producer の一歩の後に容量の検査を通った状態にあれば、その一歩が検査だった。 -/
theorem roomOk_stepProducer (σ : State T) : RoomOk (stepProducer σ) := fun v p hpc => by
  rw [stepProducer_sequenceNumber, stepProducer_capacity]
  unfold Spsc.stepProducer at hpc
  split at hpc <;> dsimp only at hpc <;> (try split at hpc) <;> simp_all [room_iff_lt]

theorem RoomOk.stepConsumer (h : Inv σ) (hr : RoomOk σ) : RoomOk (stepConsumer σ) := fun v p hpc => by
  rw [stepConsumer_producerPc] at hpc
  have := hr v p hpc
  have := h.sequenceNumber_le_stepConsumer
  rw [stepConsumer_capacity]; omega

theorem RoomOk.step (h : Inv σ) (hr : RoomOk σ) {a : Action T} {σ' : State T} (hs : step σ a = some σ') :
    RoomOk σ' := by
  cases a with
  | call c =>
    cases c <;> simp only [Spsc.step, Option.ite_none_right_eq_some, Option.some.injEq] at hs <;>
      obtain ⟨-, rfl⟩ := hs <;> intro v p hpc
    · cases hpc
    all_goals exact hr v p hpc
  | producer =>
    simp only [Spsc.step, Option.ite_none_left_eq_some, Option.some.injEq] at hs
    exact hs.2 ▸ roomOk_stepProducer σ
  | consumer =>
    simp only [Spsc.step, Option.ite_none_left_eq_some, Option.some.injEq] at hs
    exact hs.2 ▸ hr.stepConsumer h

theorem reach_roomOk {queueSize : Nat} (hr : Reach queueSize σ) : RoomOk σ :=
  (Reachable.induct_inv (P := fun σ => Inv σ ∧ RoomOk σ) ⟨init_inv queueSize, fun _ _ h => by cases h⟩
    (fun _ _ _ h hs => ⟨step_inv h.1 hs, h.2.step h.1 hs⟩) hr).2

/-! ## 残りの歩数 -/

/-- `offer` が idle に戻るまでに踏む歩数。`id == 0` の検査で loop の頭に戻らなければ、これで足りる。 -/
def ProducerPc.stepsLeft : ProducerPc T → Nat
  | .idle => 0
  | .loadProducer _ => 6
  | .loadConsumer _ _ => 5
  | .loadId _ _ => 4
  | .storeProducer _ _ => 3
  | .writeValue _ _ => 2
  | .storeId _ _ => 1

/-- consumer の呼び出しが idle に戻るまでに踏む歩数の上限。`node_id == s_index` の検査で待たなければ、
これで足りる。`drain` は cursor の差の分だけ slot を取る。 -/
def ConsumerPc.stepsLeft (seq prod : Nat) : ConsumerPc T → Nat
  | .idle | .panicked => 0
  | .pollLoadSeq => 6
  | .pollLoadProducer _ => 5
  | .pollLoadId _ => 4
  | .pollStoreSeq _ => 3
  | .pollTake _ => 2
  | .pollClear _ _ => 1
  | .drainLoadProducer _ => 3 * (prod - seq) + 3
  | .drainLoadSeq _ p => 3 * (p - seq) + 2
  | .drainStoreSeq _ r => 3 * r + 1
  | .drainLoadId _ r i => 3 * (r - i)
  | .drainTake _ r i => 3 * (r - i) - 1
  | .drainClear _ r i _ => 3 * (r - i) - 2
  | .peekLoadSeq => 4
  | .peekLoadProducer _ => 3
  | .peekLoadId _ => 2
  | .peekRead _ => 1

theorem ProducerPc.stepsLeft_le (pc : ProducerPc T) : pc.stepsLeft ≤ 6 := by
  cases pc <;> simp [stepsLeft]

/-- 窓に `capacity` より多くの index は入らないので、consumer の残りの歩数は `3 * capacity + 6` を越えない。 -/
theorem Inv.stepsLeft_le (h : Inv σ) :
    σ.consumerPc.stepsLeft σ.queue.sequenceNumber σ.queue.producer ≤ 3 * σ.queue.capacity + 6 := by
  have hw := h.slots.window
  have hle := h.producer_le
  have hc := h.consumer
  have hlo : σ.lo = σ.consumerPc.clearing.getD (σ.consumerPc.next σ.queue.sequenceNumber) := rfl
  cases hpc : σ.consumerPc <;> rw [hpc] at hc hlo <;>
    simp only [ConsumerPc.stepsLeft, ConsumerOk, ConsumerPc.clearing, ConsumerPc.next,
      Option.getD_some, Option.getD_none] at hc hlo ⊢ <;> omega

/-- consumer が stamp を消し終えていない index がなければ、producer の一歩は残りの歩数を減らす。
`id == 0` の検査で見る slot は窓の外にあり、空だからである。 -/
theorem Inv.stepsLeft_stepProducer (h : Inv σ) (hr : RoomOk σ) (hlo : σ.lo = σ.queue.sequenceNumber)
    (hi : σ.producerPc.isIdle = false) :
    (stepProducer σ).producerPc.stepsLeft < σ.producerPc.stepsLeft := by
  cases hpc : σ.producerPc with
  | idle => rw [hpc] at hi; cases hi
  | loadConsumer v p =>
    simp only [Spsc.stepProducer, hpc]; split <;> simp [ProducerPc.stepsLeft]
  | loadId v p =>
    have hp : p = σ.queue.producer := by have := h.producer; rwa [hpc] at this
    have hroom := hr v p hpc
    have hfree := h.slots.out (Nat.pos_of_isPowerOfTwo h.pow2) (Nat.le_of_eq hp.symm) (by omega)
    rw [← h.pos_eq] at hfree
    simp [Spsc.stepProducer, hpc, hfree, ProducerPc.stepsLeft]
  | _ => simp [Spsc.stepProducer, hpc, ProducerPc.stepsLeft]

/-- producer が stamp を書いていない index がなければ、consumer の一歩は残りの歩数を減らす。
consumer が待つ slot には、いつも stamp が書かれているからである。 -/
theorem Inv.stepsLeft_stepConsumer (h : Inv σ) (hu : σ.producerPc.unstamped = none)
    (hi : σ.consumerPc.isIdle = false) :
    (stepConsumer σ).consumerPc.stepsLeft (stepConsumer σ).queue.sequenceNumber
        (stepConsumer σ).queue.producer <
      σ.consumerPc.stepsLeft σ.queue.sequenceNumber σ.queue.producer := by
  have hc := h.consumer
  have hs : ∀ x, σ.producerPc.unstamped ≠ some x := by simp [hu]
  cases hpc : σ.consumerPc with
  | idle => rw [hpc] at hi; cases hi
  | panicked => rw [hpc] at hc; cases hc
  | pollLoadId s =>
    rw [hpc] at hc
    have hid := h.read_next hpc rfl hc.1.symm (hs s) hc.2
    simp [Spsc.stepConsumer, hpc, hid, ConsumerPc.stepsLeft]
  | drainLoadId s r i =>
    rw [hpc] at hc
    obtain ⟨-, hir, hrp⟩ := hc
    have hid := h.read_next (x := s + i) hpc rfl rfl (hs (s + i)) (by omega)
    simp [Spsc.stepConsumer, hpc, hid, ConsumerPc.stepsLeft]; omega
  | drainClear s r i v =>
    rw [hpc] at hc
    obtain ⟨-, hir, -, -⟩ := hc
    cases v with
    | none => simp [Spsc.stepConsumer, hpc, ConsumerPc.stepsLeft]; omega
    | some t => simp only [Spsc.stepConsumer, hpc]; split <;> simp [ConsumerPc.stepsLeft] <;> omega
  | _ =>
    rw [hpc] at hc
    simp only [ConsumerOk] at hc
    simp only [Spsc.stepConsumer, hpc]
    (try split) <;> simp only [ConsumerPc.stepsLeft] <;> omega

/-! ## 待つのは相手の呼び出しの途中だけ -/

/--
**SPSC の呼び出しは、相手の呼び出しの途中の一歩だけを待つ。**
どの到達可能な状態からでも、

* consumer が `sequence_number` を進めたのに stamp をまだ 0 に戻していない index がなければ
  （窓の先頭 `lo` が `sequence_number` に等しければ）、producer は一人で 6 歩のうちに idle に戻る。
* producer が claim したのに stamp をまだ書いていない index がなければ、consumer は一人で
  `3 * capacity + 6` 歩のうちに idle に戻る。`drain` の `limit` がどれほど大きくても変わらない。
-/
theorem spsc_waits_only_on_partner (queueSize : Nat) :
    (∀ σ : State T, Reach queueSize σ → σ.lo = σ.queue.sequenceNumber →
      (soloRun stepProducer (fun σ => σ.producerPc.isIdle) 6 σ).isSome) ∧
    (∀ σ : State T, Reach queueSize σ → σ.producerPc.unstamped = none →
      (soloRun stepConsumer (fun σ => σ.consumerPc.isIdle) (3 * σ.queue.capacity + 6) σ).isSome) := by
  refine ⟨fun σ hr hlo => ?_, fun σ hr hu => ?_⟩
  · refine soloRun_isSome_of_measure (fun σ => Inv σ ∧ RoomOk σ ∧ σ.lo = σ.queue.sequenceNumber)
      (fun σ => σ.producerPc.stepsLeft) (fun s ⟨h, hro, hl⟩ hi => ⟨⟨h.producer_step, roomOk_stepProducer s,
        by simpa only [State.lo, State.next, stepProducer_consumerPc, stepProducer_sequenceNumber] using hl⟩,
        h.stepsLeft_stepProducer hro hl hi⟩)
      ⟨reach_inv hr, reach_roomOk hr, hlo⟩ (ProducerPc.stepsLeft_le _)
  · exact soloRun_isSome_of_measure (fun s => Inv s ∧ s.producerPc.unstamped = none)
      (fun s => s.consumerPc.stepsLeft s.queue.sequenceNumber s.queue.producer)
      (fun s ⟨h, hu⟩ hi => ⟨⟨h.consumer_step, by rwa [stepConsumer_producerPc]⟩, h.stepsLeft_stepConsumer hu hi⟩)
      ⟨reach_inv hr, hu⟩ (reach_inv hr).stepsLeft_le

/-- 容量 2 の queue に `offer(7)` を走らせた後、producer は `offer(8)` の途中（slot の `id` を読む手前）、
consumer は `drain(5)` の途中（`sequence_number` を進める手前）にいる。 -/
def midCallsTrace : List (Action Nat) :=
  [.call (.offer 7)] ++ List.replicate 6 .producer ++ [.call (.offer 8), .producer, .producer, .call (.drain 5),
    .consumer, .consumer]

def midCallsState : State Nat := (run step (init 2) midCallsTrace).getD (init 2)

theorem midCallsState_return :
    midCallsState.producerPc.isIdle = false ∧ midCallsState.consumerPc.isIdle = false ∧
      (soloRun stepProducer (fun σ => σ.producerPc.isIdle) 6 midCallsState).isSome ∧
      (soloRun stepConsumer (fun σ => σ.consumerPc.isIdle) (3 * midCallsState.queue.capacity + 6)
        midCallsState).isSome :=
  have h : Reach 2 midCallsState :=
    Reachable.of_run Reachable.init (rfl : run step (init 2) midCallsTrace = some midCallsState)
  ⟨rfl, rfl, (spsc_waits_only_on_partner 2).1 _ h rfl, (spsc_waits_only_on_partner 2).2 _ h rfl⟩

/-! ## 相手が途中で止まると -/

/-- `poll` の loop を回る program counter。`s` は読んだ `sequence_number`。 -/
def ConsumerPc.PollSpin (s : Nat) : ConsumerPc T → Prop
  | .pollLoadSeq => True
  | .pollLoadProducer s' | .pollLoadId s' => s' = s
  | _ => False

/-- `offer` の loop を回る program counter。`p` は読んだ `producer`。 -/
def ProducerPc.OfferSpin (v : T) (p : Nat) : ProducerPc T → Prop
  | .loadProducer v' => v' = v
  | .loadConsumer v' p' | .loadId v' p' => v' = v ∧ p' = p
  | _ => False

/-- 読んだ index の slot に stamp が書かれないまま cursor がその index を越えていれば、
`poll` は queue を変えずに loop を回り続ける。 -/
theorem pollSpin_closed {q : RingQueue T} (hs : q.sequenceNumber < q.producer)
    (hid : (q.ringBuffer (q.pos q.sequenceNumber)).id ≠ q.sequenceNumber)
    (σ : State T) (h : σ.queue = q ∧ σ.consumerPc.PollSpin q.sequenceNumber) :
    σ.consumerPc.isIdle = false ∧ (stepConsumer σ).queue = q ∧
      (stepConsumer σ).consumerPc.PollSpin q.sequenceNumber := by
  obtain ⟨rfl, hp⟩ := h
  cases hpc : σ.consumerPc <;> rw [hpc] at hp <;> simp only [ConsumerPc.PollSpin] at hp <;> (try subst hp) <;>
    simp [Spsc.stepConsumer, hpc, hs, hid, ConsumerPc.isIdle, ConsumerPc.PollSpin]

/-- 空きがあると見えるのに cursor の slot の stamp が 0 に戻らなければ、`offer` は queue を変えずに
loop を回り続ける。 -/
theorem offerSpin_closed {q : RingQueue T} {v : T} (hroom : q.producer < q.sequenceNumber + q.capacity)
    (hid : (q.ringBuffer (q.pos q.producer)).id ≠ 0)
    (σ : State T) (h : σ.queue = q ∧ σ.producerPc.OfferSpin v q.producer) :
    σ.producerPc.isIdle = false ∧ (stepProducer σ).queue = q ∧
      (stepProducer σ).producerPc.OfferSpin v q.producer := by
  obtain ⟨rfl, hp⟩ := h
  cases hpc : σ.producerPc <;> rw [hpc] at hp <;> simp only [ProducerPc.OfferSpin] at hp <;>
    (try obtain ⟨rfl, rfl⟩ := hp) <;>
    simp [Spsc.stepProducer, hpc, room_iff_lt, hroom, hid, ProducerPc.isIdle, ProducerPc.OfferSpin]

/-- producer が claim して stamp を書いていない index の slot には、その index の stamp がない。 -/
theorem Inv.unstamped_slot (h : Inv σ) {s : Nat} (hu : σ.producerPc.unstamped = some s) (hlo : σ.lo ≤ s) :
    s < σ.queue.producer ∧ (σ.queue.ringBuffer (σ.queue.pos s)).id ≠ s := by
  have hs : s < σ.queue.producer := by
    have hp := h.producer
    cases hpc : σ.producerPc <;> simp only [ProducerPc.unstamped, hpc, reduceCtorEq, Option.some.injEq] at hu <;>
      rw [hpc] at hp <;> exact hu ▸ (by simp only [ProducerOk] at hp; omega)
  refine ⟨hs, fun hid => ?_⟩
  have h1 := h.one_le
  rw [h.read hlo hs] at hid
  simp [State.expected, h.not_clearing_unstamped hu, hu] at hid
  omega

/-- 窓がいっぱいなら、producer の cursor の slot は窓の先頭の slot で、その stamp は 0 でない。 -/
theorem Inv.full_slot (h : Inv σ) (hu : σ.producerPc.unstamped = none)
    (hfull : σ.lo + σ.queue.capacity ≤ σ.queue.producer) :
    (σ.queue.ringBuffer (σ.queue.pos σ.queue.producer)).id ≠ 0 := by
  have hw := h.slots.window
  have hC := Nat.pos_of_isPowerOfTwo h.pow2
  have h1 := h.one_le
  have hpos : σ.queue.pos σ.queue.producer = σ.queue.pos σ.lo := by
    rw [h.pos_eq, h.pos_eq, show σ.queue.producer = σ.lo + σ.queue.capacity by omega, Nat.add_mod_right]
  rw [hpos, h.read (Nat.le_refl _) (by omega)]
  simp only [State.expected, hu]
  split <;> simp <;> omega

/--
**相手が呼び出しの途中で止まると、一人で走る thread は終わらない。**
どの到達可能な状態からでも、

* producer が index `sequence_number` を claim して stamp を書く前に止まっていれば、`poll` は一人では
  何歩進めても返らない。
* producer が index `s + i` を claim して stamp を書く前に止まっていれば、その stamp を待つ `drain` は
  一人では何歩進めても返らない。
* consumer が `sequence_number` を進めて stamp をまだ 0 に戻していない index があり、そのために窓が
  `capacity` だけ埋まっていれば、cursor で数えて空きがあっても、`offer` は一人では何歩進めても返らない。
-/
theorem spsc_spins_while_partner_paused (queueSize : Nat) :
    (∀ σ : State T, Reach queueSize σ → σ.producerPc.unstamped = some σ.queue.sequenceNumber →
      σ.consumerPc = .pollLoadSeq → ∀ fuel, soloRun stepConsumer (fun σ => σ.consumerPc.isIdle) fuel σ = none) ∧
    (∀ (σ : State T) (s r i : Nat), Reach queueSize σ → σ.producerPc.unstamped = some (s + i) →
      σ.consumerPc = .drainLoadId s r i →
      ∀ fuel, soloRun stepConsumer (fun σ => σ.consumerPc.isIdle) fuel σ = none) ∧
    (∀ (σ : State T) (v : T), Reach queueSize σ → σ.producerPc = .loadProducer v →
      σ.lo + σ.queue.capacity ≤ σ.queue.producer →
      σ.queue.producer < σ.queue.sequenceNumber + σ.queue.capacity →
      ∀ fuel, soloRun stepProducer (fun σ => σ.producerPc.isIdle) fuel σ = none) := by
  refine ⟨fun σ hr hu hpc fuel => ?_, fun σ s r i hr hu hpc fuel => ?_, fun σ v hr hpc hfull hroom fuel => ?_⟩
  · have hlo : σ.lo = σ.queue.sequenceNumber := by
      simp [State.lo, State.next, hpc, ConsumerPc.clearing, ConsumerPc.next]
    obtain ⟨hs, hid⟩ := (reach_inv hr).unstamped_slot hu (Nat.le_of_eq hlo)
    exact soloRun_eq_none_of_closed _ (pollSpin_closed hs hid) fuel
      ⟨rfl, by simp [hpc, ConsumerPc.PollSpin]⟩
  · have hlo : σ.lo = s + i := by simp [State.lo, State.next, hpc, ConsumerPc.clearing, ConsumerPc.next]
    obtain ⟨-, hid⟩ := (reach_inv hr).unstamped_slot hu (Nat.le_of_eq hlo)
    exact soloRun_eq_none_of_fixed (by simp [hpc, ConsumerPc.isIdle])
      (by simp [Spsc.stepConsumer, hpc, hid]) fuel
  · have hid := (reach_inv hr).full_slot (by simp [hpc, ProducerPc.unstamped]) hfull
    exact soloRun_eq_none_of_closed _ (offerSpin_closed (v := v) hroom hid) fuel
      ⟨rfl, by simp [hpc, ProducerPc.OfferSpin]⟩

/-- 容量 1 の queue で、producer が index 1 を claim して payload を書く前に止まり、consumer が
`poll` を始める。 -/
def claimPausedTrace : List (Action Nat) :=
  [.call (.offer 7)] ++ List.replicate 4 .producer ++ [.call .poll]

/-- 同じところで、consumer は `drain(5)` で cursor を進め、index 1 の stamp を待つ。 -/
def claimPausedDrainTrace : List (Action Nat) :=
  [.call (.offer 7)] ++ List.replicate 4 .producer ++ [.call (.drain 5)] ++ List.replicate 3 .consumer

/-- 容量 1 の queue に `10` を入れ終え、consumer が `poll` で cursor を進めて payload を取る前に止まり、
producer が `20` の `offer` を始める。 -/
def takePausedTrace : List (Action Nat) :=
  [.call (.offer 10)] ++ List.replicate 6 .producer ++ [.call .poll] ++ List.replicate 4 .consumer ++
    [.call (.offer 20)]

def claimPausedState : State Nat := (run step (init 1) claimPausedTrace).getD (init 1)

def claimPausedDrainState : State Nat := (run step (init 1) claimPausedDrainTrace).getD (init 1)

def takePausedState : State Nat := (run step (init 1) takePausedTrace).getD (init 1)

theorem pausedStates_spin :
    (∀ fuel, soloRun stepConsumer (fun σ => σ.consumerPc.isIdle) fuel claimPausedState = none) ∧
    (∀ fuel, soloRun stepConsumer (fun σ => σ.consumerPc.isIdle) fuel claimPausedDrainState = none) ∧
    (∀ fuel, soloRun stepProducer (fun σ => σ.producerPc.isIdle) fuel takePausedState = none) :=
  ⟨(spsc_spins_while_partner_paused 1).1 _ (Reachable.of_run Reachable.init
      (rfl : run step (init 1) claimPausedTrace = some claimPausedState)) rfl rfl,
    (spsc_spins_while_partner_paused 1).2.1 _ 1 1 0 (Reachable.of_run Reachable.init
      (rfl : run step (init 1) claimPausedDrainTrace = some claimPausedDrainState)) rfl rfl,
    (spsc_spins_while_partner_paused 1).2.2 _ 20 (Reachable.of_run Reachable.init
      (rfl : run step (init 1) takePausedTrace = some takePausedState)) rfl (by decide) (by decide)⟩

end Spsc

/-! ## MPSC：止まった producer は consumer を panic させる -/

namespace RingQueue

@[simp] theorem setValue_id (q : RingQueue T) (p : Nat) (v : Option T) (j : Nat) :
    ((q.setValue p v).ringBuffer j).id = (q.ringBuffer j).id := by
  rw [setValue_ringBuffer]; split <;> simp_all

theorem setId_id (q : RingQueue T) (p i j : Nat) :
    ((q.setId p i).ringBuffer j).id = if j = p then i else (q.ringBuffer j).id := by
  rw [setId_ringBuffer]; split <;> rfl

end RingQueue

namespace Mpsc

/-- slot の stamp と、claim して stamp を書いていない index の関係。どの slot の stamp も `producer` より
小さく、claim して stamp を書いていない index は 0 でなく、その stamp はどの slot にもなく、
claim した producer は一つだけである。`drain` を含むどの実行でも保たれる。 -/
structure StampOk (q : RingQueue T) (ps : Nat → ProducerPc T) : Prop where
  id_lt : ∀ j, (q.ringBuffer j).id < q.producer
  unstamped : ∀ t p, (ps t).unstamped = some p → 0 < p ∧ p < q.producer ∧ ∀ j, (q.ringBuffer j).id ≠ p
  unique : ∀ t t' p, (ps t).unstamped = some p → (ps t').unstamped = some p → t = t'

section StampOk

variable {q q' : RingQueue T} {ps : Nat → ProducerPc T}

/-- stamp がそのままか 0 に戻るだけで、`producer` が変わらない書き換え。consumer の一歩はどれもこれである。 -/
theorem StampOk.of_ids (h : StampOk q ps) (hp : q'.producer = q.producer)
    (hid : ∀ j, (q'.ringBuffer j).id = (q.ringBuffer j).id ∨ (q'.ringBuffer j).id = 0) : StampOk q' ps where
  id_lt j := by have := h.id_lt j; have := h.id_lt 0; rcases hid j with e | e <;> rw [e, hp] <;> omega
  unstamped t p hu := by
    obtain ⟨h0, hlt, hne⟩ := h.unstamped t p hu
    exact ⟨h0, hp ▸ hlt, fun j => by rcases hid j with e | e <;> rw [e] <;> [exact hne j; omega]⟩
  unique := h.unique

/-- stamp を書いていない index を変えない、producer の program counter の書き換え。 -/
theorem StampOk.setProducer (h : StampOk q ps) (t : Nat) (pc : ProducerPc T)
    (hpc : pc.unstamped = none ∨ pc.unstamped = (ps t).unstamped) : StampOk q (Function.update ps t pc) := by
  have hu : ∀ t' p, (Function.update ps t pc t').unstamped = some p → (ps t').unstamped = some p := by
    intro t' p h'
    by_cases he : t' = t
    · subst he; rw [Function.update_same] at h'; rcases hpc with e | e <;> rw [e] at h' <;> [cases h'; exact h']
    · rwa [Function.update_noteq he] at h'
  exact ⟨h.id_lt, fun t p h' => h.unstamped t p (hu t p h'), fun t t' p h₁ h₂ => h.unique t t' p (hu t p h₁) (hu t' p h₂)⟩

/-- `compare_exchange_weak` の成功：producer `t` が index `producer` を claim し、cursor が一つ進む。 -/
theorem StampOk.claim (h : StampOk q ps) (t : Nat) (pc : ProducerPc T) (hpc : pc.unstamped = some q.producer) :
    StampOk { q with producer := q.producer + 1 } (Function.update ps t pc) := by
  have h0 := h.id_lt 0
  have hu : ∀ t' p, (Function.update ps t pc t').unstamped = some p →
      (t' = t ∧ p = q.producer) ∨ (t' ≠ t ∧ (ps t').unstamped = some p) := by
    intro t' p h'
    by_cases he : t' = t
    · subst he; rw [Function.update_same, hpc] at h'; exact .inl ⟨rfl, (Option.some.inj h').symm⟩
    · rw [Function.update_noteq he] at h'; exact .inr ⟨he, h'⟩
  refine ⟨fun j => Nat.lt_succ_of_lt (h.id_lt j), fun t' p h' => ?_, fun t₁ t₂ p h₁ h₂ => ?_⟩
  · rcases hu t' p h' with ⟨-, rfl⟩ | ⟨-, h'⟩
    · exact ⟨by omega, Nat.lt_succ_self _, fun j => Nat.ne_of_lt (h.id_lt j)⟩
    · obtain ⟨h0', hlt, hne⟩ := h.unstamped t' p h'
      exact ⟨h0', Nat.lt_succ_of_lt hlt, hne⟩
  · rcases hu t₁ p h₁ with ⟨e₁, hp⟩ | ⟨-, h₁⟩ <;> rcases hu t₂ p h₂ with ⟨e₂, hp⟩ | ⟨-, h₂⟩
    · exact e₁.trans e₂.symm
    · exact absurd (h.unstamped _ _ h₂).2.1 (by omega)
    · exact absurd (h.unstamped _ _ h₁).2.1 (by omega)
    · exact h.unique _ _ _ h₁ h₂

/-- stamp を書く：producer `t` が claim した index `p` を slot `i` の stamp にして idle に戻る。 -/
theorem StampOk.stamp (h : StampOk q ps) {t p : Nat} (hu : (ps t).unstamped = some p) (i : Nat) :
    StampOk (q.setId i p) (Function.update ps t .idle) := by
  have hne : ∀ t' p', (Function.update ps t .idle t').unstamped = some p' →
      t' ≠ t ∧ (ps t').unstamped = some p' := by
    intro t' p' h'
    by_cases he : t' = t
    · subst he; simp [ProducerPc.unstamped] at h'
    · rw [Function.update_noteq he] at h'; exact ⟨he, h'⟩
  refine ⟨fun j => ?_, fun t' p' h' => ?_, fun t₁ t₂ p' h₁ h₂ => h.unique _ _ _ (hne _ _ h₁).2 (hne _ _ h₂).2⟩
  · rw [RingQueue.setId_id]; split
    · exact (h.unstamped t p hu).2.1
    · exact h.id_lt j
  · obtain ⟨ht, h'⟩ := hne t' p' h'
    obtain ⟨h0, hlt, hid⟩ := h.unstamped t' p' h'
    refine ⟨h0, hlt, fun j => ?_⟩
    rw [RingQueue.setId_id]; split
    · exact fun e => ht (h.unique _ _ _ h' (e ▸ hu))
    · exact hid j

end StampOk

variable {σ : State T}

theorem stampOk_init (queueSize : Nat) : StampOk (init queueSize : State T).queue (init queueSize).producers where
  id_lt _ := Nat.one_pos
  unstamped _ _ h := by simp [init, ProducerPc.unstamped] at h
  unique _ _ _ h := by simp [init, ProducerPc.unstamped] at h

/-- consumer の一歩は、producer の cursor を変えず、slot の stamp をそのままにするか 0 に戻すだけである。 -/
theorem stepConsumer_stamps (σ : State T) :
    (stepConsumer σ).queue.producer = σ.queue.producer ∧ ∀ j,
      ((stepConsumer σ).queue.ringBuffer j).id = (σ.queue.ringBuffer j).id ∨
        ((stepConsumer σ).queue.ringBuffer j).id = 0 := by
  unfold stepConsumer
  split <;> dsimp only <;> (repeat' split) <;>
    refine ⟨rfl, fun j => ?_⟩ <;> simp only [RingQueue.setValue_id, RingQueue.setId_id] <;> (try split) <;> simp

theorem StampOk.stepProducer (h : StampOk σ.queue σ.producers) (t : Nat) :
    StampOk (stepProducer t σ).queue (stepProducer t σ).producers := by
  have hid : ∀ i v, StampOk (σ.queue.setValue i v) σ.producers := fun i v =>
    h.of_ids rfl fun j => .inl (RingQueue.setValue_id _ _ _ _)
  cases hpc : σ.producers t <;> simp only [Mpsc.stepProducer, hpc, State.setProducer]
  case idle => exact h
  case loadProducer v => exact h.setProducer t _ (.inl rfl)
  case loadConsumer v p => split <;> exact h.setProducer t _ (.inl rfl)
  case loadId v p => split <;> exact h.setProducer t _ (.inl rfl)
  case compareExchange v p =>
    split
    · subst p; exact h.claim t _ rfl
    · exact h.setProducer t _ (.inl rfl)
  case writeValue v p => exact (hid _ _).setProducer t _ (.inr (by rw [hpc]; rfl))
  case storeId v p => exact h.stamp (by rw [hpc]; rfl) _

theorem StampOk.step (h : StampOk σ.queue σ.producers) {a : Action T} {σ' : State T}
    (hs : step σ a = some σ') : StampOk σ'.queue σ'.producers := by
  cases a with
  | call c =>
    cases c <;> simp only [Mpsc.step, Option.ite_none_right_eq_some, Option.some.injEq] at hs <;>
      obtain ⟨-, rfl⟩ := hs
    · exact h.setProducer _ _ (.inl rfl)
    all_goals exact h
  | producer t =>
    simp only [Mpsc.step, Option.ite_none_left_eq_some, Option.some.injEq] at hs
    exact hs.2 ▸ h.stepProducer t
  | spuriousFailure t =>
    simp only [Mpsc.step] at hs
    split at hs
    · cases hs; exact h.setProducer t _ (.inl rfl)
    · cases hs
  | consumer =>
    simp only [Mpsc.step, Option.ite_none_left_eq_some, Option.some.injEq] at hs
    obtain ⟨-, rfl⟩ := hs
    rw [stepConsumer_producers]
    exact h.of_ids (stepConsumer_stamps σ).1 (stepConsumer_stamps σ).2

/-- `drain` を含むどの実行でも、stamp の不変量は保たれる。 -/
theorem stampOk_of_reach {queueSize : Nat} (hr : Reach queueSize σ) : StampOk σ.queue σ.producers :=
  Reachable.induct_inv (P := fun σ => StampOk σ.queue σ.producers) (stampOk_init queueSize)
    (fun _ _ _ h hs => h.step hs) hr

/-! ### spin の上限まで -/

/-- consumer が一人で `n` 歩より少なく進んだどの時点でも、変わったのは program counter だけで、panic して
いない。 -/
def SpinsFor (σ : State T) (n : Nat) : Prop :=
  ∀ k < n, ∃ pc, stepConsumer^[k] σ = { σ with consumerPc := pc } ∧ ∀ r, pc ≠ .panicked r

theorem SpinsFor.one (h : ∀ r, σ.consumerPc ≠ .panicked r) : SpinsFor σ 1 := fun k hk =>
  ⟨σ.consumerPc, by rw [Nat.lt_one_iff.1 hk]; rfl, h⟩

/-- `a` 歩で program counter だけが変わった状態から、さらに `b` 歩 spin が続けば、あわせて `a + b` 歩続く。 -/
theorem SpinsFor.append {a b : Nat} {pc : ConsumerPc T} (h₁ : SpinsFor σ a)
    (he : stepConsumer^[a] σ = { σ with consumerPc := pc }) (h₂ : SpinsFor { σ with consumerPc := pc } b) :
    SpinsFor σ (a + b) := by
  intro k hk
  by_cases hka : k < a
  · exact h₁ k hka
  · obtain ⟨pc', he', hp'⟩ := h₂ (k - a) (by omega)
    refine ⟨pc', ?_, hp'⟩
    rw [show k = (k - a) + a by omega, Function.iterate_add_apply, he, he']

/-- `poll` の loop の一周。cursor の index の slot に stamp がなければ、三歩で spin の回数が一つ増えるか、
上限を越えて panic する。queue も履歴も変わらない。 -/
theorem pollLoop_three (hp : σ.queue.sequenceNumber < σ.queue.producer)
    (hid : (σ.queue.ringBuffer (σ.queue.pos σ.queue.sequenceNumber)).id ≠ σ.queue.sequenceNumber)
    {i : Nat} (hpc : σ.consumerPc = .pollLoadSeq i) :
    SpinsFor σ 3 ∧ stepConsumer^[3] σ = { σ with consumerPc :=
      (if i + 1 > spinLimit then .panicked .gotStuck else .pollLoadSeq (i + 1)) } := by
  refine ⟨fun k hk => ?_, ?_⟩
  · match k, hk with
    | 0, _ => exact ⟨.pollLoadSeq i, by rw [← hpc]; rfl, nofun⟩
    | 1, _ => exact ⟨.pollLoadProducer i σ.queue.sequenceNumber,
        by simp only [Function.iterate_one, Mpsc.stepConsumer, hpc], nofun⟩
    | 2, _ => exact ⟨.pollLoadId i σ.queue.sequenceNumber, by
        show stepConsumer (stepConsumer σ) = _; simp only [Mpsc.stepConsumer, hpc, hp, if_true], nofun⟩
  · show stepConsumer (stepConsumer (stepConsumer σ)) = _
    simp only [Mpsc.stepConsumer, hpc, hp, if_true, hid, if_false]
    split <;> rfl

/-- 上の一周を spin の上限まで繰り返す。spin を `i` 回した `poll` は、さらに `3 * d + 3` 歩
（`i + d = spinLimit`）で `"Got stuck on ..."` の panic に着き、それまでは panic しない。 -/
theorem pollLoop_panics : ∀ (d : Nat) {σ : State T} {i : Nat},
    σ.queue.sequenceNumber < σ.queue.producer →
    (σ.queue.ringBuffer (σ.queue.pos σ.queue.sequenceNumber)).id ≠ σ.queue.sequenceNumber →
    i + d = spinLimit → σ.consumerPc = .pollLoadSeq i →
    SpinsFor σ (3 * d + 3) ∧ stepConsumer^[3 * d + 3] σ = { σ with consumerPc := .panicked .gotStuck }
  | 0, σ, i, hp, hid, hd, hpc => by
    obtain ⟨hs, he⟩ := pollLoop_three hp hid hpc
    exact ⟨hs, by rw [he, if_pos (by omega)]⟩
  | d + 1, σ, i, hp, hid, hd, hpc => by
    obtain ⟨hs, he⟩ := pollLoop_three hp hid hpc
    rw [if_neg (by omega)] at he
    obtain ⟨hs', he'⟩ := pollLoop_panics d (σ := { σ with consumerPc := .pollLoadSeq (i + 1) }) hp hid
      (by omega) rfl
    refine ⟨?_, ?_⟩
    · rw [show 3 * (d + 1) + 3 = 3 + (3 * d + 3) by omega]
      exact hs.append he hs'
    · rw [show 3 * (d + 1) + 3 = (3 * d + 3) + 3 by omega, Function.iterate_add_apply, he]
      exact he'

/-- `drain` の spin：slot に stamp がなければ、一歩で失敗の回数が一つ増えるか、上限を越えて panic する。
失敗を `f` 回数えた `drain` は、さらに `d + 1` 歩（`f + d = spinLimit`）で `"Failed to get the node!"` の
panic に着き、それまでは panic しない。 -/
theorem drainLoop_panics {s r i : Nat} : ∀ (d : Nat) {σ : State T} {f : Nat},
    (σ.queue.ringBuffer (σ.queue.pos (s + i))).id ≠ s + i → f + d = spinLimit →
    σ.consumerPc = .drainLoadId s r i f →
    SpinsFor σ (d + 1) ∧ stepConsumer^[d + 1] σ = { σ with consumerPc := .panicked .failedToGetNode }
  | 0, σ, f, hid, hd, hpc => by
    refine ⟨SpinsFor.one (by rw [hpc]; nofun), ?_⟩
    show stepConsumer σ = _
    simp only [Mpsc.stepConsumer, hpc, hid, if_false, if_pos (show f + 1 > spinLimit by omega)]
  | d + 1, σ, f, hid, hd, hpc => by
    have he : stepConsumer^[1] σ = { σ with consumerPc := .drainLoadId s r i (f + 1) } := by
      simp only [Function.iterate_one, Mpsc.stepConsumer, hpc, hid, if_false,
        if_neg (show ¬f + 1 > spinLimit by omega)]
    obtain ⟨hs', he'⟩ := drainLoop_panics d (σ := { σ with consumerPc := .drainLoadId s r i (f + 1) }) hid
      (by omega) rfl
    refine ⟨?_, ?_⟩
    · rw [Nat.add_comm]
      exact (SpinsFor.one (by rw [hpc]; nofun)).append he hs'
    · rw [Function.iterate_add_apply, he]
      exact he'

/--
**claim して stamp を書く前に止まった producer は、consumer を panic させる。**
`drain` を含むどの到達可能な状態でも、producer `t` が index を claim して stamp を書く前に止まっていれば、

* その index が `sequence_number` で、consumer が `poll` の loop の頭で spin を `i` 回しているなら、
  consumer は一人でちょうど `3 * (spinLimit - i) + 3` 歩進むと `"Got stuck on ..."` で panic する。
* consumer が `drain` でその index の stamp を待ち、失敗を `f` 回数えているなら、consumer は一人で
  ちょうど `spinLimit - f + 1` 歩進むと `"Failed to get the node!"` で panic する。

どちらも、それまでのどの歩でも panic しておらず、変わったのは program counter だけで、queue も履歴も
変わらない（`SpinsFor`）。`spinLimit` は `1_000_000_000` である。
-/
theorem mpsc_consumer_panics_on_stalled_producer (queueSize : Nat) :
    (∀ (σ : State T) (t i : Nat), Reach queueSize σ →
      (σ.producers t).unstamped = some σ.queue.sequenceNumber → σ.consumerPc = .pollLoadSeq i →
      i ≤ spinLimit → SpinsFor σ (3 * (spinLimit - i) + 3) ∧
        stepConsumer^[3 * (spinLimit - i) + 3] σ = { σ with consumerPc := .panicked .gotStuck }) ∧
    (∀ (σ : State T) (t s r i f : Nat), Reach queueSize σ → (σ.producers t).unstamped = some (s + i) →
      σ.consumerPc = .drainLoadId s r i f → f ≤ spinLimit → SpinsFor σ (spinLimit - f + 1) ∧
        stepConsumer^[spinLimit - f + 1] σ = { σ with consumerPc := .panicked .failedToGetNode }) := by
  refine ⟨fun σ t i hr hu hpc hi => ?_, fun σ t s r i f hr hu hpc hf => ?_⟩
  · obtain ⟨-, hp, hid⟩ := (stampOk_of_reach hr).unstamped t _ hu
    exact pollLoop_panics _ hp (hid _) (by omega) hpc
  · obtain ⟨-, -, hid⟩ := (stampOk_of_reach hr).unstamped t _ hu
    exact drainLoop_panics _ (hid _) (by omega) hpc

/-- 容量 1 の queue で、producer 0 が index 1 を claim して payload を書く前に止まり、consumer が
`poll` を始める。 -/
def stalledPollTrace : List (Action Nat) :=
  [.call (.offer 0 7)] ++ List.replicate 4 (.producer 0) ++ [.call .poll]

/-- 同じところで、consumer は `drain(5)` で cursor を進め、index 1 の stamp を待つ。 -/
def stalledDrainTrace : List (Action Nat) :=
  [.call (.offer 0 7)] ++ List.replicate 4 (.producer 0) ++ [.call (.drain 5)] ++ List.replicate 3 .consumer

def stalledPollState : State Nat := (run step (init 1) stalledPollTrace).getD (init 1)

def stalledDrainState : State Nat := (run step (init 1) stalledDrainTrace).getD (init 1)

theorem stalledStates_panic :
    (SpinsFor stalledPollState (3 * (spinLimit - 0) + 3) ∧
      stepConsumer^[3 * (spinLimit - 0) + 3] stalledPollState =
        { stalledPollState with consumerPc := .panicked .gotStuck }) ∧
    (SpinsFor stalledDrainState (spinLimit - 0 + 1) ∧
      stepConsumer^[spinLimit - 0 + 1] stalledDrainState =
        { stalledDrainState with consumerPc := .panicked .failedToGetNode }) :=
  ⟨(mpsc_consumer_panics_on_stalled_producer 1).1 _ 0 0 (Reachable.of_run Reachable.init
      (rfl : run step (init 1) stalledPollTrace = some stalledPollState)) rfl rfl (Nat.zero_le _),
    (mpsc_consumer_panics_on_stalled_producer 1).2 _ 0 1 1 0 0 (Reachable.of_run Reachable.init
      (rfl : run step (init 1) stalledDrainTrace = some stalledDrainState)) rfl rfl (Nat.zero_le _)⟩

end Mpsc

end RustCommon.Queue
