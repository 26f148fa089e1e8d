import RustCommon.Queue.Ring

/-!
# MPSC queue：thread ごとの step

`mpsc_queue.rs` の `MpscQueue` を、何個でもよい producer thread と一つの consumer thread が
共有 memory を一歩ずつ読み書きする状態機械として書く。一歩の粒度と memory の仮定は SPSC と同じ
（`Spsc.lean`）。`MpscQueueWrap` / `MpscQueueReceive` は `UnsafeCell` 越しに同じ関数を呼ぶだけである。

SPSC との違いは三つある。

* producer は cursor を `compare_exchange_weak` で進める。weak な CAS は cursor が変わっていなくても
  失敗しうるので、成功・失敗の一歩のほかに、見かけの失敗の一歩（`Action.spuriousFailure`）を持つ。
* consumer の spin には上限がある（`poll` の `i`、`drain` の `fail_count`）。越えると panic する。
* `peek` はない。

state の履歴（`claimed`、`taken`、`replies`、`acted`）は SPSC と同じ意味である。
`claimed` は CAS に成功した `offer` の値を、claim した index の順に並べる。
-/

namespace RustCommon.Queue.Mpsc

/-- producer thread の program counter。`offer(value)` の loop のどこにいるか。 -/
inductive ProducerPc (T : Type)
  | idle
  /-- loop の頭。`producer` を読む。 -/
  | loadProducer (value : T)
  /-- `sequence_number` を読み、容量を調べる。 -/
  | loadConsumer (value : T) (pIndex : Nat)
  /-- slot の `id` を読む。 -/
  | loadId (value : T) (pIndex : Nat)
  /-- `producer.compare_exchange_weak(p_index, p_index + 1)`。 -/
  | compareExchange (value : T) (pIndex : Nat)
  /-- slot に payload を書く。 -/
  | writeValue (value : T) (pIndex : Nat)
  /-- slot の `id` に `p_index` を書く。 -/
  | storeId (value : T) (pIndex : Nat)

/-- consumer の `panic!`。 -/
inductive Panic
  /-- `poll` の `panic!("Got stuck on ...")`。 -/
  | gotStuck
  /-- `drain` の `panic!("Failed to get the node!")`。 -/
  | failedToGetNode
  /-- `drain` の `panic!("Found a None!")`。 -/
  | foundNone
deriving DecidableEq, Repr

/-- consumer thread の program counter。`poll` と `drain` のどこにいるか。 -/
inductive ConsumerPc (T : Type)
  | idle
  /-- `poll` の loop の頭。`i` は slot の `id` の検査に失敗した回数。 -/
  | pollLoadSeq (i : Nat)
  | pollLoadProducer (i sIndex : Nat)
  | pollLoadId (i sIndex : Nat)
  | pollStoreSeq (sIndex : Nat)
  | pollTake (sIndex : Nat)
  | pollClear (sIndex : Nat) (v : Option T)
  | drainLoadProducer (limit : Nat)
  | drainLoadSeq (limit pIndex : Nat)
  | drainStoreSeq (sIndex request : Nat)
  /-- `for i in 0..request` の `i` 回目。`failCount` は `id` の検査に失敗した回数。 -/
  | drainLoadId (sIndex request i failCount : Nat)
  | drainTake (sIndex request i : Nat)
  | drainClear (sIndex request i : Nat) (v : Option T)
  | panicked (reason : Panic)
deriving DecidableEq

variable {T : Type}

/-- idle かどうか。 -/
def ProducerPc.isIdle : ProducerPc T → Bool
  | .idle => true
  | _ => false

/-- idle かどうか。panic した thread は idle に戻らない。 -/
def ConsumerPc.isIdle : ConsumerPc T → Bool
  | .idle => true
  | _ => false

/-- spin の上限 `1_000_000_000`。失敗の回数がこれを超えると panic する。 -/
def spinLimit : Nat := 1000000000

/-- 共有 memory、各 thread の program counter、履歴。producer thread は番号で区別する。 -/
structure State (T : Type) where
  queue : RingQueue T
  producers : Nat → ProducerPc T
  consumerPc : ConsumerPc T
  claimed : List T
  taken : List (Nat × Option T)
  replies : List (Reply T)
  acted : List T

/-- `MpscQueueWrap::new(queue_size)` の直後。 -/
def init (queueSize : Nat) : State T :=
  { queue := RingQueue.new queueSize, producers := fun _ => .idle, consumerPc := .idle,
    claimed := [], taken := [], replies := [], acted := [] }

/-- producer thread `t` の program counter を書き換える。 -/
def State.setProducer (σ : State T) (t : Nat) (pc : ProducerPc T) : State T :=
  { σ with producers := Function.update σ.producers t pc }

/-! ## producer の一歩 -/

/-- producer thread `t` の一歩（`offer`）。idle なら何もしない。 -/
def stepProducer (t : Nat) (σ : State T) : State T :=
  let q := σ.queue
  match σ.producers t with
  | .idle => σ
  | .loadProducer v => σ.setProducer t (.loadConsumer v q.producer)
  | .loadConsumer v p =>
    if p < q.capacity ∨ p - q.capacity < q.sequenceNumber then σ.setProducer t (.loadId v p)
    else { σ.setProducer t .idle with replies := σ.replies ++ [.offered false] }
  | .loadId v p =>
    if (q.ringBuffer (q.pos p)).id = 0 then σ.setProducer t (.compareExchange v p)
    else σ.setProducer t (.loadProducer v)
  | .compareExchange v p =>
    if q.producer = p then
      { σ.setProducer t (.writeValue v p) with
        queue := { q with producer := p + 1 }, claimed := σ.claimed ++ [v] }
    else σ.setProducer t (.loadProducer v)
  | .writeValue v p =>
    { σ.setProducer t (.storeId v p) with queue := q.setValue (q.pos p) (some v) }
  | .storeId _ p =>
    { σ.setProducer t .idle with
      queue := q.setId (q.pos p) p, replies := σ.replies ++ [.offered true] }

/-! ## consumer の一歩 -/

/-- consumer thread の一歩（`poll`、`drain`）。idle と panic の後は何もしない。 -/
def stepConsumer (σ : State T) : State T :=
  let q := σ.queue
  match σ.consumerPc with
  | .idle => σ
  | .panicked _ => σ
  | .pollLoadSeq i => { σ with consumerPc := .pollLoadProducer i q.sequenceNumber }
  | .pollLoadProducer i s =>
    if q.producer > s then { σ with consumerPc := .pollLoadId i s }
    else { σ with consumerPc := .idle, replies := σ.replies ++ [.polled none] }
  | .pollLoadId i s =>
    if (q.ringBuffer (q.pos s)).id = s then { σ with consumerPc := .pollStoreSeq s }
    else if i + 1 > spinLimit then { σ with consumerPc := .panicked .gotStuck }
    else { σ with consumerPc := .pollLoadSeq (i + 1) }
  | .pollStoreSeq s =>
    { σ with queue := { q with sequenceNumber := s + 1 }, consumerPc := .pollTake s }
  | .pollTake s =>
    let v := (q.ringBuffer (q.pos s)).value
    { σ with queue := q.setValue (q.pos s) none, consumerPc := .pollClear s v,
             taken := σ.taken ++ [(s, v)] }
  | .pollClear s v =>
    { σ with queue := q.setId (q.pos s) 0, consumerPc := .idle,
             replies := σ.replies ++ [.polled v] }
  | .drainLoadProducer limit => { σ with consumerPc := .drainLoadSeq limit q.producer }
  | .drainLoadSeq limit p =>
    if p ≤ q.sequenceNumber then
      { σ with consumerPc := .idle, replies := σ.replies ++ [.drained 0] }
    else
      { σ with consumerPc := .drainStoreSeq q.sequenceNumber (min limit (p - q.sequenceNumber)) }
  | .drainStoreSeq s request =>
    if 0 < request then
      { σ with queue := { q with sequenceNumber := s + request },
               consumerPc := .drainLoadId s request 0 0 }
    else
      { σ with queue := { q with sequenceNumber := s + request }, consumerPc := .idle,
               replies := σ.replies ++ [.drained request] }
  | .drainLoadId s request i f =>
    if (q.ringBuffer (q.pos (s + i))).id = s + i then
      { σ with consumerPc := .drainTake s request i }
    else if f + 1 > spinLimit then { σ with consumerPc := .panicked .failedToGetNode }
    else { σ with consumerPc := .drainLoadId s request i (f + 1) }
  | .drainTake s request i =>
    let v := (q.ringBuffer (q.pos (s + i))).value
    { σ with queue := q.setValue (q.pos (s + i)) none, consumerPc := .drainClear s request i v,
             taken := σ.taken ++ [(s + i, v)] }
  | .drainClear s request i v =>
    match v with
    | none => { σ with queue := q.setId (q.pos (s + i)) 0, consumerPc := .panicked .foundNone }
    | some t =>
      if i + 1 < request then
        { σ with queue := q.setId (q.pos (s + i)) 0, consumerPc := .drainLoadId s request (i + 1) 0,
                 acted := σ.acted ++ [t] }
      else
        { σ with queue := q.setId (q.pos (s + i)) 0, consumerPc := .idle,
                 acted := σ.acted ++ [t], replies := σ.replies ++ [.drained request] }

/-! ## 全体の一歩 -/

/-- `MpscQueue` への呼び出し。`offer` はどの producer thread が呼ぶかを持つ。 -/
inductive Call (T : Type)
  | offer (t : Nat) (value : T)
  | poll
  | drain (limit : Nat)

/-- 抽象 FIFO への同じ呼び出し。 -/
def Call.toCall : Call T → Queue.Call T
  | .offer _ v => .offer v
  | .poll => .poll
  | .drain limit => .drain limit

/-- 実行の一歩：idle な thread が呼び出しを始めるか、どれかの thread が一歩進むか、
`compare_exchange_weak` が見かけの失敗をする。 -/
inductive Action (T : Type)
  | call (c : Call T)
  | producer (t : Nat)
  | spuriousFailure (t : Nat)
  | consumer

/-- 一歩。起こせない動作は `none`。 -/
def step (σ : State T) : Action T → Option (State T)
  | .call (.offer t v) =>
    if (σ.producers t).isIdle then some (σ.setProducer t (.loadProducer v)) else none
  | .call .poll =>
    if σ.consumerPc.isIdle then some { σ with consumerPc := .pollLoadSeq 0 } else none
  | .call (.drain limit) =>
    if σ.consumerPc.isIdle then some { σ with consumerPc := .drainLoadProducer limit } else none
  | .producer t => if (σ.producers t).isIdle then none else some (stepProducer t σ)
  | .spuriousFailure t =>
    match σ.producers t with
    | .compareExchange v _ => some (σ.setProducer t (.loadProducer v))
    | _ => none
  | .consumer => if σ.consumerPc.isIdle then none else some (stepConsumer σ)

/-- 到達可能な状態。 -/
abbrev Reach (queueSize : Nat) (σ : State T) : Prop := Reachable step (init queueSize) σ

/-! ## drain が cursor を先に進めることの帰結

`drain` は `sequence_number` を `s + request` に進めてから、slot を一つずつ待つ。
cursor が進んだ時点で、producer の容量の検査は一周後の index にその slot を渡してしまう。
容量 1 の queue で、二つの producer と `drain` を次のように混ぜる。

1. producer 0 が index 1 を claim し、payload `10` を書く（stamp はまだ）。
2. `drain(1)` が cursor を 2 に進め、index 1 の stamp を待つ。
3. producer 1 は空きがあると見て index 2 を claim し、同じ slot に payload `20` を書く。
4. producer 0 が stamp 1 を書く。`drain` は index 1 として `20` を取り出す。`10` は失われる。
5. producer 1 が stamp 2 を書く。次の `drain(1)` は index 2 の slot から `None` を取り出して panic する。
-/

/-- 上の混ぜ方。thread 0 と 1 が producer。 -/
def lostPayloadTrace : List (Action Nat) :=
  [.call (.offer 0 10)] ++ List.replicate 5 (.producer 0) ++
  [.call (.drain 1)] ++ List.replicate 3 .consumer ++
  [.call (.offer 1 20)] ++ List.replicate 5 (.producer 1) ++
  [.producer 0] ++ List.replicate 3 .consumer ++
  [.producer 1, .call (.drain 1)] ++ List.replicate 6 .consumer

/--
**`MpscQueue` は claim した payload を失い、`"Found a None!"` で panic しうる。**
`lostPayloadTrace` の実行は、index 1 の payload として index 2 の値 `20` を取り出し、
index 2 では `None` を取り出して panic する。`act` に渡るのは `20` だけである。
-/
theorem mpsc_drain_loses_payload :
    ∃ σ, run step (init 1) lostPayloadTrace = some σ ∧ σ.claimed = [10, 20] ∧
      σ.taken = [(1, some 20), (2, none)] ∧ σ.acted = [20] ∧ σ.consumerPc = .panicked .foundNone := by
  rw [run_eq_foldl]
  simp [lostPayloadTrace, step, stepProducer, stepConsumer, init, RingQueue.new, State.setProducer,
    RingQueue.pos, RingQueue.setId, RingQueue.setValue, roundToPowerOfTwo, roundToPowerOfTwo.go,
    ProducerPc.isIdle, ConsumerPc.isIdle, Nat.and_zero, Function.update_apply]

/-! ## 一度に一つずつ呼ぶ実行 -/

/-- 呼び出しを走らせる thread の一歩と、その thread が idle に戻ったかの判定：`offer` は呼んだ producer
thread `t`、ほかは consumer。 -/
def callThread : Call T → (State T → State T) × (State T → Bool)
  | .offer t _ => (stepProducer t, fun σ => (σ.producers t).isIdle)
  | _ => (stepConsumer, fun σ => σ.consumerPc.isIdle)

/-- 呼び出し `c` を始めて、呼んだ thread だけを idle に戻るまで進める。
`compare_exchange_weak` は cursor が変わっていなければ成功する。 -/
abbrev CallRuns : State T → Call T → State T → Prop := RustCommon.CallRuns step .call callThread

/-- 呼び出しの列を、一つずつ最後まで走らせる。 -/
abbrev SeqRun : State T → List (Call T) → State T → Prop := RustCommon.SeqRun CallRuns

end RustCommon.Queue.Mpsc
