import RustCommon.Queue.SpscSafety
import RustCommon.Queue.Mpsc

/-!
# queue の容量の検査と空の検査

`offer` は `p_index = producer` を読んだ後、`sequence_number` を読んで
`p_index < capacity || p_index - capacity < sequence_number` を調べ、成り立たなければ `false` を返す。
二つの cursor の差 `producer - sequence_number` は、claim された index のうち consumer の cursor が
まだ越えていないものの数である。

どちらの queue でも、thread をどう混ぜても、この差は `capacity` を越えない。そして `offer` が `false` を
返す一歩は、その時点で差がちょうど `capacity` のとき、つまり cursor で数えて queue が一杯のときだけである。
MPSC では、そのとき `offer` が読んだ `p_index` は今の `producer` でもある：ほかの producer が読んだ後に
claim していれば、検査は通る（`offer_fails_only_when_full`）。

consumer の側も同じく cursor で数える。`poll` が `None` を返し、`drain` が 0 を返すのは、cursor で数えて
queue が空のときだけである。ただ SPSC の `peek` は先頭の slot の stamp も見るので、先頭の index を claim した
producer がまだ stamp を書いていなければ、空でない queue にも `None` を返す
（`consumer_reports_empty_only_when_empty`）。

SPSC では、これは `SpscSafety.lean` の不変量から出る。MPSC の `drain` は slot を待つ前に cursor を進めるので、
slot の中身についての不変量は `drain` を含む実行では成り立たない。それでも cursor と各 thread が覚えている
index の関係は、`drain` を含むどの実行でも保たれる。これを `Cursors` として別に立てる。
-/

namespace RustCommon.Queue

/-- `offer` の容量の検査は、`p_index < sequence_number + capacity` と同じである。 -/
theorem room_iff_lt (p seq cap : Nat) : (p < cap ∨ p - cap < seq) ↔ p < seq + cap := by omega

variable {T : Type}

/-! ## SPSC -/

namespace Spsc

variable {σ : State T}

/-- cursor の差が容量を越えないことと、`offer` の容量の検査が `false` を返すのは一杯のときだけであること。 -/
structure CapacityOk (σ : State T) : Prop where
  seq_le : σ.queue.sequenceNumber ≤ σ.queue.producer
  le_add : σ.queue.producer ≤ σ.queue.sequenceNumber + σ.queue.capacity
  rejects_iff : ∀ v p, σ.producerPc = .loadConsumer v p →
    ((stepProducer σ).replies = σ.replies ++ [.offered false] ↔
      σ.queue.producer = σ.queue.sequenceNumber + σ.queue.capacity)

/-- producer の cursor は、consumer の次に取る index から容量の幅の窓の中にある。 -/
theorem Inv.producer_le (h : Inv σ) : σ.queue.producer ≤ σ.queue.sequenceNumber + σ.queue.capacity := by
  have := h.slots.window; have := σ.lo_le_next; have := h.next_le_seq; omega

theorem Inv.capacityOk (h : Inv σ) : CapacityOk σ where
  seq_le := h.seq_le
  le_add := h.producer_le
  rejects_iff v p hpc := by
    have hp : p = σ.queue.producer := by have := h.producer; rwa [hpc] at this
    have hle := h.producer_le
    simp only [stepProducer, hpc, room_iff_lt]
    split
    · exact iff_of_false (by simp) (by omega)
    · exact iff_of_true rfl (by omega)

end Spsc

/-! ## MPSC -/

namespace Mpsc

/-- producer thread が覚えている index と cursor の関係。容量の検査を通った index は
`sequence_number + capacity` より小さい。 -/
def ProducerCursor (prod seq cap : Nat) : ProducerPc T → Prop
  | .idle | .loadProducer _ | .writeValue _ _ | .storeId _ _ => True
  | .loadConsumer _ p => p ≤ prod
  | .loadId _ p | .compareExchange _ p => p < seq + cap

/-- consumer thread が覚えている index と cursor の関係。 -/
def ConsumerCursor (seq prod : Nat) : ConsumerPc T → Prop
  | .pollLoadProducer _ s => s = seq
  | .pollLoadId _ s | .pollStoreSeq s => s = seq ∧ s < prod
  | .drainLoadSeq _ p => p ≤ prod
  | .drainStoreSeq s r => s = seq ∧ s + r ≤ prod
  | .idle | .pollLoadSeq _ | .pollTake _ | .pollClear _ _ | .drainLoadProducer _ | .drainLoadId _ _ _ _
    | .drainTake _ _ _ | .drainClear _ _ _ _ | .panicked _ => True

/-- cursor と、各 thread が覚えている index の不変量。 -/
structure Cursors (q : RingQueue T) (ps : Nat → ProducerPc T) (c : ConsumerPc T) : Prop where
  seq_le : q.sequenceNumber ≤ q.producer
  le_add : q.producer ≤ q.sequenceNumber + q.capacity
  producers : ∀ t, ProducerCursor q.producer q.sequenceNumber q.capacity (ps t)
  consumer : ConsumerCursor q.sequenceNumber q.producer c

theorem ProducerCursor.mono {prod prod' seq seq' cap : Nat} {pc : ProducerPc T}
    (h : ProducerCursor prod seq cap pc) (hp : prod ≤ prod') (hs : seq ≤ seq') :
    ProducerCursor prod' seq' cap pc := by
  cases pc <;> simp only [ProducerCursor] at h ⊢ <;> omega

theorem ConsumerCursor.mono {seq prod prod' : Nat} {c : ConsumerPc T} (h : ConsumerCursor seq prod c)
    (hp : prod ≤ prod') : ConsumerCursor seq prod' c := by
  cases c <;> simp only [ConsumerCursor] at h ⊢ <;> omega

section Cursors

variable {q : RingQueue T} {ps : Nat → ProducerPc T} {c : ConsumerPc T}

/-- slot だけを書き換えても cursor は変わらない。 -/
theorem Cursors.setValue (h : Cursors q ps c) (i : Nat) (v : Option T) : Cursors (q.setValue i v) ps c :=
  ⟨h.1, h.2, h.3, h.4⟩

theorem Cursors.setId (h : Cursors q ps c) (i j : Nat) : Cursors (q.setId i j) ps c :=
  ⟨h.1, h.2, h.3, h.4⟩

theorem Cursors.setProducer (h : Cursors q ps c) (t : Nat) (pc : ProducerPc T)
    (hpc : ProducerCursor q.producer q.sequenceNumber q.capacity pc) :
    Cursors q (Function.update ps t pc) c :=
  { h with
    producers := fun t' => by
      by_cases he : t' = t
      · subst he; simpa using hpc
      · simpa [Function.update_noteq he] using h.producers t' }

theorem Cursors.setConsumer (h : Cursors q ps c) (c' : ConsumerPc T)
    (hc : ConsumerCursor q.sequenceNumber q.producer c') : Cursors q ps c' :=
  { h with consumer := hc }

/-- `compare_exchange_weak` が成功して、producer の cursor を一つ進める。 -/
theorem Cursors.claim (h : Cursors q ps c) (t : Nat) (pc : ProducerPc T)
    (hp : q.producer < q.sequenceNumber + q.capacity)
    (hpc : ProducerCursor (q.producer + 1) q.sequenceNumber q.capacity pc) :
    Cursors { q with producer := q.producer + 1 } (Function.update ps t pc) c where
  seq_le := Nat.le_succ_of_le h.seq_le
  le_add := hp
  producers t' := by
    by_cases he : t' = t
    · subst he; simpa using hpc
    · simpa [Function.update_noteq he] using (h.producers t').mono (Nat.le_succ _) (Nat.le_refl _)
  consumer := h.consumer.mono (Nat.le_succ _)

/-- consumer が `sequence_number` を `s` に進める。 -/
theorem Cursors.advance (h : Cursors q ps c) {s : Nat} (h₁ : q.sequenceNumber ≤ s) (h₂ : s ≤ q.producer)
    (c' : ConsumerPc T) (hc : ConsumerCursor s q.producer c') :
    Cursors { q with sequenceNumber := s } ps c' where
  seq_le := h₂
  le_add := by have := h.le_add; simp only; omega
  producers t := (h.producers t).mono (Nat.le_refl _) h₁
  consumer := hc

theorem cursors_init (queueSize : Nat) :
    Cursors (RingQueue.new queueSize : RingQueue T) (fun _ => .idle) .idle where
  seq_le := Nat.le_refl 1
  le_add := Nat.le_add_right 1 _
  producers _ := trivial
  consumer := trivial

end Cursors

/-! ## 一歩と実行 -/

variable {σ σ' : State T}

theorem Cursors.stepProducer (h : Cursors σ.queue σ.producers σ.consumerPc) (t : Nat) :
    Cursors (stepProducer t σ).queue (stepProducer t σ).producers (stepProducer t σ).consumerPc := by
  have hok := h.producers t
  cases hpc : σ.producers t <;> rw [hpc] at hok <;>
    simp only [Mpsc.stepProducer, hpc, State.setProducer, room_iff_lt]
  case idle => simpa [hpc] using h
  case loadProducer v => exact h.setProducer t (.loadConsumer v _) (Nat.le_refl _)
  case loadConsumer v p =>
    split
    · exact h.setProducer t (.loadId v p) ‹_›
    · exact h.setProducer t .idle trivial
  case loadId v p =>
    split
    · exact h.setProducer t (.compareExchange v p) hok
    · exact h.setProducer t (.loadProducer v) trivial
  case compareExchange v p =>
    split
    · subst p; exact h.claim t (.writeValue v _) hok trivial
    · exact h.setProducer t (.loadProducer v) trivial
  case writeValue v p => exact (h.setProducer t (.storeId v p) trivial).setValue _ _
  case storeId v p => exact (h.setProducer t .idle trivial).setId _ _

theorem Cursors.stepConsumer (h : Cursors σ.queue σ.producers σ.consumerPc) :
    Cursors (stepConsumer σ).queue (stepConsumer σ).producers (stepConsumer σ).consumerPc := by
  have hok := h.consumer
  cases hpc : σ.consumerPc <;> rw [hpc] at hok <;> simp only [Mpsc.stepConsumer, hpc]
  case idle => simpa [hpc] using h
  case panicked => simpa [hpc] using h
  case pollLoadSeq i => exact h.setConsumer (.pollLoadProducer i _) rfl
  case pollLoadProducer i s =>
    split
    · exact h.setConsumer (.pollLoadId i s) ⟨hok, ‹_›⟩
    · exact h.setConsumer .idle trivial
  case pollLoadId i s =>
    split
    · exact h.setConsumer (.pollStoreSeq s) hok
    · split
      · exact h.setConsumer (.panicked .gotStuck) trivial
      · exact h.setConsumer (.pollLoadSeq (i + 1)) trivial
  case pollStoreSeq s => exact h.advance (by rw [hok.1]; omega) hok.2 (.pollTake s) trivial
  case pollTake s => exact (h.setConsumer (.pollClear s _) trivial).setValue _ _
  case pollClear s v => exact (h.setConsumer .idle trivial).setId _ _
  case drainLoadProducer limit => exact h.setConsumer (.drainLoadSeq limit _) (Nat.le_refl _)
  case drainLoadSeq limit p =>
    have hp : p ≤ σ.queue.producer := hok
    split
    · exact h.setConsumer .idle trivial
    · exact h.setConsumer (.drainStoreSeq _ _) ⟨rfl, by omega⟩
  case drainStoreSeq s r =>
    have hs : σ.queue.sequenceNumber ≤ s + r := by rw [hok.1]; omega
    split
    · exact h.advance hs hok.2 (.drainLoadId s r 0 0) trivial
    · exact h.advance hs hok.2 .idle trivial
  case drainLoadId s r i f =>
    split
    · exact h.setConsumer (.drainTake s r i) trivial
    · split
      · exact h.setConsumer (.panicked .failedToGetNode) trivial
      · exact h.setConsumer (.drainLoadId s r i (f + 1)) trivial
  case drainTake s r i => exact (h.setConsumer (.drainClear s r i _) trivial).setValue _ _
  case drainClear s r i v =>
    split
    · exact (h.setConsumer (.panicked .foundNone) trivial).setId _ _
    · split
      · exact (h.setConsumer (.drainLoadId s r (i + 1) 0) trivial).setId _ _
      · exact (h.setConsumer .idle trivial).setId _ _

theorem Cursors.step (h : Cursors σ.queue σ.producers σ.consumerPc) {a : Action T}
    (hs : step σ a = some σ') : Cursors σ'.queue σ'.producers σ'.consumerPc := by
  cases a with
  | call c =>
    cases c <;> simp only [Mpsc.step, Option.ite_none_right_eq_some, Option.some.injEq] at hs <;>
      obtain ⟨-, rfl⟩ := hs
    · exact h.setProducer _ (.loadProducer _) trivial
    · exact h.setConsumer (.pollLoadSeq 0) trivial
    · exact h.setConsumer (.drainLoadProducer _) trivial
  | producer t =>
    simp only [Mpsc.step, Option.ite_none_left_eq_some, Option.some.injEq] at hs
    exact hs.2 ▸ h.stepProducer t
  | spuriousFailure t =>
    simp only [Mpsc.step] at hs
    split at hs
    · cases hs; exact h.setProducer t (.loadProducer _) trivial
    · cases hs
  | consumer =>
    simp only [Mpsc.step, Option.ite_none_left_eq_some, Option.some.injEq] at hs
    exact hs.2 ▸ h.stepConsumer

/-- `drain` を含むどの実行でも、cursor の不変量は保たれる。 -/
theorem cursors_of_reach {queueSize : Nat} (hr : Reach queueSize σ) :
    Cursors σ.queue σ.producers σ.consumerPc :=
  Reachable.induct_inv (P := fun σ => Cursors σ.queue σ.producers σ.consumerPc)
    (cursors_init queueSize) (fun _ _ _ h hs => h.step hs) hr

/-- cursor の差が容量を越えないことと、`offer` の容量の検査が `false` を返すのは一杯のときだけで、
そのとき検査した index が今の `producer` であること。 -/
structure CapacityOk (σ : State T) : Prop where
  seq_le : σ.queue.sequenceNumber ≤ σ.queue.producer
  le_add : σ.queue.producer ≤ σ.queue.sequenceNumber + σ.queue.capacity
  rejects_iff : ∀ t v p, σ.producers t = .loadConsumer v p →
    ((stepProducer t σ).replies = σ.replies ++ [.offered false] ↔
      p = σ.queue.producer ∧ σ.queue.producer = σ.queue.sequenceNumber + σ.queue.capacity)

theorem Cursors.capacityOk (h : Cursors σ.queue σ.producers σ.consumerPc) : CapacityOk σ where
  seq_le := h.seq_le
  le_add := h.le_add
  rejects_iff t v p hpc := by
    have hp : p ≤ σ.queue.producer := by have := h.producers t; rwa [hpc] at this
    have hle := h.le_add
    simp only [Mpsc.stepProducer, hpc, State.setProducer, room_iff_lt]
    split
    · exact iff_of_false (by simp) (by omega)
    · exact iff_of_true rfl (by omega)

end Mpsc

/--
**`offer` が `false` を返すのは queue が一杯のときだけである。**
SPSC でも MPSC でも、どの到達可能な状態でも `sequence_number ≤ producer ≤ sequence_number + capacity` で、
容量を調べている producer の一歩が `offer` に `false` を返させるのは、その時点で
`producer = sequence_number + capacity` のときであり、そのときに限る。MPSC ではさらに、検査した `p_index` が
今の `producer` に等しい。MPSC のこの性質は `drain` を含む実行でも成り立つ。
-/
theorem offer_fails_only_when_full (queueSize : Nat) :
    (∀ σ : Spsc.State T, Spsc.Reach queueSize σ → Spsc.CapacityOk σ) ∧
    (∀ σ : Mpsc.State T, Mpsc.Reach queueSize σ → Mpsc.CapacityOk σ) :=
  ⟨fun _ hr => (Spsc.reach_inv hr).capacityOk, fun _ hr => (Mpsc.cursors_of_reach hr).capacityOk⟩

/-- 容量 1 の SPSC queue に `7` を入れ終え、`8` の `offer` が容量を調べるところ。 -/
def spscFullTrace : List (Spsc.Action Nat) :=
  .call (.offer 7) :: List.replicate 6 .producer ++ [.call (.offer 8), .producer]

/-- 容量 1 の MPSC queue で、producer `0` が `7` を入れ終え、producer `1` の `8` の `offer` が
容量を調べるところ。 -/
def mpscFullTrace : List (Mpsc.Action Nat) :=
  .call (.offer 0 7) :: List.replicate 6 (.producer 0) ++ [.call (.offer 1 8), .producer 1]

def spscFullState : Spsc.State Nat := (run Spsc.step (Spsc.init 1) spscFullTrace).getD (Spsc.init 1)

def mpscFullState : Mpsc.State Nat := (run Mpsc.step (Mpsc.init 1) mpscFullTrace).getD (Mpsc.init 1)

theorem fullStates_capacityOk :
    Spsc.Reach 1 spscFullState ∧ Spsc.CapacityOk spscFullState ∧
      Mpsc.Reach 1 mpscFullState ∧ Mpsc.CapacityOk mpscFullState :=
  have hs : Spsc.Reach 1 spscFullState := Reachable.of_run Reachable.init
    (rfl : run Spsc.step (Spsc.init 1) spscFullTrace = some spscFullState)
  have hm : Mpsc.Reach 1 mpscFullState := Reachable.of_run Reachable.init
    (rfl : run Mpsc.step (Mpsc.init 1) mpscFullTrace = some mpscFullState)
  ⟨hs, (offer_fails_only_when_full 1).1 _ hs, hm, (offer_fails_only_when_full 1).2 _ hm⟩

end RustCommon.Queue
