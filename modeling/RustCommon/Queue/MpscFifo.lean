import RustCommon.Queue.Mpsc
import RustCommon.Queue.SpscFifo

/-!
# MPSC queue：一度に一つずつ呼ぶと、容量付き FIFO になる

SPSC と同じく、呼び出しを一つずつ、呼んだ thread だけを idle に戻るまで走らせる（`SeqRun`）。
`compare_exchange_weak` は cursor が変わっていなければ成功する（見かけの失敗は起こさない）。
ring の上での効果は SPSC と同じなので、ring の表現の補題（`RingAt.push`、`RingAt.take`）、`drain` の loop
（`drain_loop`）、呼び出しの列の組み立て（`SeqRun.refines`）は SPSC と共通のものを使う。ここで示すのは、
MPSC の step で各呼び出しの一回分がどう走るかだけである。違うのは program counter の形と、spin の回数を
数える引数だけである。

最後に、二つの queue の結果をまとめて述べる（`queues_refine_fifo`）。
-/

namespace RustCommon.Queue.Mpsc

variable {T : Type}

/-- idle の状態が、容量 `C` の抽象 FIFO `f` を表す。producer thread はすべて idle。 -/
structure Abs (C : Nat) (σ : State T) (f : Fifo T) : Prop where
  capacity : σ.queue.capacity = C
  ring : RingAt σ.queue σ.queue.sequenceNumber f.items
  replies : σ.replies = f.replies
  acted : σ.acted = f.acted
  producers_idle : ∀ t, σ.producers t = .idle
  consumer_idle : σ.consumerPc = .idle

theorem abs_init (n : Nat) : Abs (roundToPowerOfTwo n) (init n : State T) ⟨[], [], []⟩ where
  capacity := rfl
  ring := ringAt_new n
  replies := rfl
  acted := rfl
  producers_idle _ := rfl
  consumer_idle := rfl

variable {C : Nat} {σ : State T} {items : List T} {rs : List (Reply T)} {as : List T}

/-- idle な thread の program counter を idle に書いても、全員 idle のままである。 -/
theorem setProducer_idle (hp : ∀ t, σ.producers t = .idle) (t t' : Nat) :
    Function.update σ.producers t .idle t' = .idle := by
  by_cases h : t' = t
  · subst h; simp
  · simp [h, hp]

/-! ## offer -/

/-- thread `t` の `offer` を一人で走らせる。空きがあれば 6 歩（CAS は 1 回で成功）、満杯なら 2 歩。 -/
theorem Abs.offer (h : Abs C σ ⟨items, rs, as⟩) (t : Nat) (v : T) :
    ∃ σ', SoloRuns (stepProducer t) (fun σ => (σ.producers t).isIdle) (σ.setProducer t (.loadProducer v))
        σ' ∧ Abs C σ' (Fifo.call C ⟨items, rs, as⟩ (.offer v)) := by
  have hr := h.ring
  have hC := h.capacity
  by_cases hlt : items.length < C
  · have hroom := hr.room_iff.2 (hC ▸ hlt)
    refine ⟨{ σ with
      queue := (({ σ.queue with producer := σ.queue.producer + 1 } : RingQueue T).setValue
        (σ.queue.pos σ.queue.producer) (some v)).setId (σ.queue.pos σ.queue.producer) σ.queue.producer
      producers := Function.update σ.producers t .idle, claimed := σ.claimed ++ [v],
      replies := σ.replies ++ [.offered true] }, ⟨6, ?_⟩, ?_⟩
    · simp [soloRun, stepProducer, State.setProducer, ProducerPc.isIdle, hroom, hr.free (hC ▸ hlt)]
    · simp only [Fifo.call, if_pos hlt]
      exact ⟨hC, hr.push (hC ▸ hlt) v, by rw [h.replies], by rw [h.acted],
        setProducer_idle h.producers_idle t, h.consumer_idle⟩
  · have hroom : ¬(σ.queue.producer < σ.queue.capacity ∨
        σ.queue.producer - σ.queue.capacity < σ.queue.sequenceNumber) := by
      rw [hr.room_iff, hC]; exact hlt
    refine ⟨{ σ with
      producers := Function.update σ.producers t .idle, replies := σ.replies ++ [.offered false] },
      ⟨2, ?_⟩, ?_⟩
    · simp [soloRun, stepProducer, State.setProducer, ProducerPc.isIdle, hroom]
    · simp only [Fifo.call, if_neg hlt]
      exact ⟨hC, hr, by rw [h.replies], h.acted, setProducer_idle h.producers_idle t, h.consumer_idle⟩

/-! ## poll -/

/-- `poll` を一人で走らせる。中身があれば 6 歩で先頭を取り出し（spin は起きない）、空なら 2 歩で `None`。 -/
theorem Abs.poll (h : Abs C σ ⟨items, rs, as⟩) :
    ∃ σ', SoloRuns stepConsumer (fun σ => σ.consumerPc.isIdle) { σ with consumerPc := .pollLoadSeq 0 } σ' ∧
      Abs C σ' (Fifo.call C ⟨items, rs, as⟩ .poll) := by
  have hr := h.ring
  have hP := hr.producer_eq
  cases items with
  | nil =>
    refine ⟨{ σ with consumerPc := .idle, replies := σ.replies ++ [.polled none] }, ⟨2, ?_⟩, ?_⟩
    · simp [soloRun, stepConsumer, ConsumerPc.isIdle, hP]
    · exact ⟨h.capacity, hr, by simp [Fifo.call, h.replies], h.acted, h.producers_idle, rfl⟩
  | cons x xs =>
    have hgt : σ.queue.sequenceNumber < σ.queue.producer := by simp [hP]
    refine ⟨{ σ with
      queue := (({ σ.queue with sequenceNumber := σ.queue.sequenceNumber + 1 } : RingQueue T).setValue
        (σ.queue.pos σ.queue.sequenceNumber) none).setId (σ.queue.pos σ.queue.sequenceNumber) 0
      consumerPc := .idle, taken := σ.taken ++ [(σ.queue.sequenceNumber, some x)],
      replies := σ.replies ++ [.polled (some x)] }, ⟨6, ?_⟩, ?_⟩
    · simp [soloRun, stepConsumer, ConsumerPc.isIdle, hgt, hr.head]
    · exact ⟨h.capacity, (hr.setSequenceNumber _).take, by simp [Fifo.call, h.replies], h.acted,
        h.producers_idle, rfl⟩

/-! ## drain -/

/-- `drain` の loop の一回（3 歩）：slot の stamp を確かめ、payload を取り出し、stamp を消して `act` に渡す。
`r` 回目なら `r` を返して idle に戻る。producer は動かず、返り値は最後の回のほかは増えない。 -/
theorem drain_item {s r : Nat} (rs : List (Reply T)) (i : Nat) (σ : State T) (x : T) (xs : List T)
    (hat : σ.consumerPc = .drainLoadId s r i 0 ∧ σ.replies = rs ∧ ∀ t, σ.producers t = .idle)
    (hr : RingAt σ.queue (s + i) (x :: xs)) :
    ∃ σ', (∀ fuel, soloRun stepConsumer (fun σ => σ.consumerPc.isIdle) (fuel + 3) σ =
        soloRun stepConsumer (fun σ => σ.consumerPc.isIdle) fuel σ') ∧
      σ'.queue = (σ.queue.setValue (σ.queue.pos (s + i)) none).setId (σ.queue.pos (s + i)) 0 ∧
      σ'.acted = σ.acted ++ [x] ∧
      (if i + 1 < r then σ'.consumerPc = .drainLoadId s r (i + 1) 0 ∧ σ'.replies = rs ∧ ∀ t, σ'.producers t = .idle
        else σ'.consumerPc = .idle ∧ σ'.replies = rs ++ [.drained r] ∧ ∀ t, σ'.producers t = .idle) := by
  obtain ⟨hpc, rfl, hp⟩ := hat
  by_cases hi : i + 1 < r
  · refine ⟨{ σ with
      queue := (σ.queue.setValue (σ.queue.pos (s + i)) none).setId (σ.queue.pos (s + i)) 0,
      consumerPc := .drainLoadId s r (i + 1) 0, taken := σ.taken ++ [(s + i, some x)], acted := σ.acted ++ [x] },
      fun fuel => ?_, rfl, rfl, by rw [if_pos hi]; exact ⟨rfl, rfl, hp⟩⟩
    simp [soloRun, stepConsumer, ConsumerPc.isIdle, hpc, hr.head, hi]
  · refine ⟨{ σ with
      queue := (σ.queue.setValue (σ.queue.pos (s + i)) none).setId (σ.queue.pos (s + i)) 0,
      consumerPc := .idle, taken := σ.taken ++ [(s + i, some x)], acted := σ.acted ++ [x],
      replies := σ.replies ++ [.drained r] }, fun fuel => ?_, rfl, rfl, by rw [if_neg hi]; exact ⟨rfl, rfl, hp⟩⟩
    simp [soloRun, stepConsumer, ConsumerPc.isIdle, hpc, hr.head, hi]

/-- `drain` の始め（3 歩）：cursor を読み、`min limit (P - S)` だけ進めて loop に入る。 -/
theorem soloRun_drain_start {limit : Nat} (hgt : σ.queue.sequenceNumber < σ.queue.producer)
    (hr : 0 < min limit (σ.queue.producer - σ.queue.sequenceNumber)) (fuel : Nat) :
    soloRun stepConsumer (fun σ => σ.consumerPc.isIdle) (fuel + 3)
        { σ with consumerPc := .drainLoadProducer limit } =
      soloRun stepConsumer (fun σ => σ.consumerPc.isIdle) fuel
        { σ with
          queue := { σ.queue with
            sequenceNumber := σ.queue.sequenceNumber + min limit (σ.queue.producer - σ.queue.sequenceNumber) },
          consumerPc := .drainLoadId σ.queue.sequenceNumber
            (min limit (σ.queue.producer - σ.queue.sequenceNumber)) 0 0 } := by
  simp [soloRun, stepConsumer, ConsumerPc.isIdle, Nat.not_le.2 hgt, hr]

/--
`drain` を一人で走らせる。空なら 2 歩で 0、`limit = 0` なら 3 歩で 0、
それ以外は cursor を `r = min limit length` だけ進めてから `r` 個を順に取り出す。
-/
theorem Abs.drain (h : Abs C σ ⟨items, rs, as⟩) (limit : Nat) :
    ∃ σ', SoloRuns stepConsumer (fun σ => σ.consumerPc.isIdle)
        { σ with consumerPc := .drainLoadProducer limit } σ' ∧
      Abs C σ' (Fifo.call C ⟨items, rs, as⟩ (.drain limit)) := by
  have hr := h.ring
  have hP := hr.producer_eq
  cases items with
  | nil =>
    refine ⟨{ σ with consumerPc := .idle, replies := σ.replies ++ [.drained 0] }, ⟨2, ?_⟩, ?_⟩
    · simp [soloRun, stepConsumer, ConsumerPc.isIdle, hP]
    · exact ⟨h.capacity, by simpa [Fifo.call] using hr, by simp [Fifo.call, h.replies],
        by simp [Fifo.call, h.acted], h.producers_idle, rfl⟩
  | cons x xs =>
    have hgt : ¬σ.queue.producer ≤ σ.queue.sequenceNumber := by simp [hP]
    cases limit with
    | zero =>
      refine ⟨{ σ with
        queue := { σ.queue with sequenceNumber := σ.queue.sequenceNumber + 0 },
        consumerPc := .idle, replies := σ.replies ++ [.drained 0] }, ⟨3, ?_⟩, ?_⟩
      · simp [soloRun, stepConsumer, ConsumerPc.isIdle, hgt]
      · exact ⟨h.capacity, hr.setSequenceNumber _, by simp [Fifo.call, h.replies],
          by simp [Fifo.call, h.acted], h.producers_idle, rfl⟩
    | succ k =>
      have hmin : min (k + 1) (σ.queue.producer - σ.queue.sequenceNumber) = min k xs.length + 1 := by
        simp [hP]; omega
      have hr' : RingAt { σ.queue with sequenceNumber := σ.queue.sequenceNumber + (min k xs.length + 1) }
          (σ.queue.sequenceNumber + 0) ((x :: xs).take (k + 1) ++ (x :: xs).drop (k + 1)) := by
        rw [List.take_append_drop]; exact hr.setSequenceNumber _
      obtain ⟨σ', hrun, ⟨hpc', hrs', hp'⟩, hq, hac, hseq, hcap⟩ := drain_loop State.queue State.acted
        (fun i τ => τ.consumerPc = .drainLoadId σ.queue.sequenceNumber (min k xs.length + 1) i 0 ∧
          τ.replies = σ.replies ∧ ∀ t, τ.producers t = .idle)
        (fun τ => τ.consumerPc = .idle ∧ τ.replies = σ.replies ++ [.drained (min k xs.length + 1)] ∧
          ∀ t, τ.producers t = .idle)
        (fun τ h => by simp [h.1, ConsumerPc.isIdle]) (fun i τ y ys => drain_item σ.replies i τ y ys)
        ((x :: xs).take (k + 1))
        { σ with queue := { σ.queue with sequenceNumber := σ.queue.sequenceNumber + (min k xs.length + 1) },
                 consumerPc := .drainLoadId σ.queue.sequenceNumber (min k xs.length + 1) 0 0 }
        0 ⟨rfl, rfl, h.producers_idle⟩ (by simp) (by simp) hr'
      refine ⟨σ', ⟨3 * ((x :: xs).take (k + 1)).length + 3, ?_⟩, ?_⟩
      · rw [soloRun_drain_start (Nat.lt_of_not_le hgt) (by omega), hmin]
        exact hrun
      · refine ⟨hcap.trans h.capacity, by simpa [hseq] using hq, ?_, ?_, hp', hpc'⟩
        · rw [hrs']; simp [Fifo.call, h.replies]; omega
        · rw [hac]; simp [Fifo.call, h.acted]

/-! ## 呼び出しの列 -/

/-- 一つの呼び出しは走り切り、FIFO に同じ呼び出しをした結果を表す状態に着く。 -/
theorem Abs.callRuns {f : Fifo T} (h : Abs C σ f) (c : Call T) :
    ∃ σ', CallRuns σ c σ' ∧ Abs C σ' (f.call C c.toCall) := by
  have hc := h.consumer_idle
  obtain ⟨items, rs, as⟩ := f
  cases c with
  | offer t v =>
    obtain ⟨σ', hr, ha⟩ := h.offer t v
    exact ⟨σ', ⟨_, by simp [step, h.producers_idle t, ProducerPc.isIdle], hr⟩, ha⟩
  | poll =>
    obtain ⟨σ', hr, ha⟩ := h.poll
    exact ⟨σ', ⟨_, by simp [step, hc, ConsumerPc.isIdle], hr⟩, ha⟩
  | drain limit =>
    obtain ⟨σ', hr, ha⟩ := h.drain limit
    exact ⟨σ', ⟨_, by simp [step, hc, ConsumerPc.isIdle], hr⟩, ha⟩

/-- 一度に一つずつ呼ぶ MPSC queue は、容量 `roundToPowerOfTwo n` の FIFO である。 -/
theorem mpsc_seqRun_fifo (n : Nat) (calls : List (Call T)) :
    ∃ σ, SeqRun (init n) calls σ ∧ (∀ σ', SeqRun (init n) calls σ' → σ' = σ) ∧
      Abs (roundToPowerOfTwo n) σ (Fifo.run (roundToPowerOfTwo n) (calls.map Call.toCall)) := by
  rw [Fifo.run, List.foldl_map]
  exact SeqRun.refines (Abs _) (fun f c => Fifo.call _ f c.toCall) (fun _ _ c h => h.callRuns c)
    (fun _ _ _ _ h₁ h₂ => h₁.unique h₂) (abs_init n) calls

end RustCommon.Queue.Mpsc

namespace RustCommon.Queue

/--
**一度に一つずつ呼ぶと、二つの queue はどちらも容量 `roundToPowerOfTwo n` の FIFO である。**

`new(n)` から、どの呼び出しの列を一つずつ走らせても、

* 各呼び出しは有限歩で idle に戻り（panic しない）、行き着く状態は一つに決まる。
* 返り値の列と `act` に渡した値の列は、容量付き FIFO（`Fifo.run`）に同じ列を呼んだものと同じである。
  `offer` は FIFO が満杯のときちょうど `false` を返し、`drain` は先頭の `min limit length` 個を順に渡す。
* 最後の状態で ring の表現不変量 `RingAt` が成り立ち、その中身は FIFO の中身である。
-/
theorem queues_refine_fifo {T : Type} (n : Nat) (spscCalls : List (Call T))
    (mpscCalls : List (Mpsc.Call T)) :
    (∃ σ, Spsc.SeqRun (Spsc.init n) spscCalls σ ∧
      (∀ σ', Spsc.SeqRun (Spsc.init n) spscCalls σ' → σ' = σ) ∧
      Spsc.Abs (roundToPowerOfTwo n) σ (Fifo.run (roundToPowerOfTwo n) spscCalls)) ∧
    (∃ σ, Mpsc.SeqRun (Mpsc.init n) mpscCalls σ ∧
      (∀ σ', Mpsc.SeqRun (Mpsc.init n) mpscCalls σ' → σ' = σ) ∧
      Mpsc.Abs (roundToPowerOfTwo n) σ
        (Fifo.run (roundToPowerOfTwo n) (mpscCalls.map Mpsc.Call.toCall))) :=
  ⟨Spsc.spsc_seqRun_fifo n spscCalls, Mpsc.mpsc_seqRun_fifo n mpscCalls⟩

end RustCommon.Queue
