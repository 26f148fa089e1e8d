import RustCommon.Queue.Ring

/-!
# SPSC queue：thread ごとの step

`spsc_queue.rs` の `SpscQueue` を、producer thread と consumer thread が共有 memory を
一歩ずつ読み書きする状態機械として書く。一歩は cursor か slot の stamp の一回の load / store、
または payload の一回の書き込み・取り出し（`replace`）である。
memory は sequentially consistent とする（`Relaxed` の弱い効果は扱わない）。
`SpscQueueSendWrap` / `SpscQueueReceiveWrap` は `UnsafeCell` 越しに同じ関数を呼ぶだけなので、
別の step は持たない。

state には実行に効かない履歴も持たせる。

* `claimed` — producer cursor を進めた `offer` の値を、claim した index の順に。
  index `k` の値は `claimed[k-1]` である。
* `taken` / `peeked` — consumer が slot から取り出した（`peek` で読んだ）index と payload。
* `replies` / `acted` — 返り値と、`drain` が `act` に渡した値。逐次実行を FIFO と比べるのに使う。
-/

namespace RustCommon.Queue.Spsc

/-- producer thread の program counter。`offer(value)` の loop のどこにいるか。 -/
inductive ProducerPc (T : Type)
  | idle
  /-- loop の頭。`producer` を読む。 -/
  | loadProducer (value : T)
  /-- `sequence_number` を読み、容量を調べる。 -/
  | loadConsumer (value : T) (pIndex : Nat)
  /-- slot の `id` を読む。 -/
  | loadId (value : T) (pIndex : Nat)
  /-- `producer` に `p_index + 1` を書く。 -/
  | storeProducer (value : T) (pIndex : Nat)
  /-- slot に payload を書く。 -/
  | writeValue (value : T) (pIndex : Nat)
  /-- slot の `id` に `p_index` を書く。 -/
  | storeId (value : T) (pIndex : Nat)

/-- consumer thread の program counter。`poll`、`drain`、`peek` のどこにいるか。 -/
inductive ConsumerPc (T : Type)
  | idle
  /-- `poll` の loop の頭。`sequence_number` を読む。 -/
  | pollLoadSeq
  | pollLoadProducer (sIndex : Nat)
  | pollLoadId (sIndex : Nat)
  | pollStoreSeq (sIndex : Nat)
  | pollTake (sIndex : Nat)
  | pollClear (sIndex : Nat) (v : Option T)
  | drainLoadProducer (limit : Nat)
  | drainLoadSeq (limit pIndex : Nat)
  | drainStoreSeq (sIndex request : Nat)
  /-- `for i in 0..request` の `i` 回目。slot の `id` を読む。 -/
  | drainLoadId (sIndex request i : Nat)
  | drainTake (sIndex request i : Nat)
  | drainClear (sIndex request i : Nat) (v : Option T)
  | peekLoadSeq
  | peekLoadProducer (sIndex : Nat)
  | peekLoadId (sIndex : Nat)
  | peekRead (sIndex : Nat)
  /-- `drain` の `panic!("Found a None!")`。 -/
  | panicked

variable {T : Type}

/-- idle かどうか。 -/
def ProducerPc.isIdle : ProducerPc T → Bool
  | .idle => true
  | _ => false

/-- idle かどうか。panic した thread は idle に戻らない。 -/
def ConsumerPc.isIdle : ConsumerPc T → Bool
  | .idle => true
  | _ => false

/-- 共有 memory、二つの thread の program counter、履歴。 -/
structure State (T : Type) where
  queue : RingQueue T
  producerPc : ProducerPc T
  consumerPc : ConsumerPc T
  claimed : List T
  taken : List (Nat × Option T)
  peeked : List (Nat × Option T)
  replies : List (Reply T)
  acted : List T

/-- `SpscQueueSendWrap::new(queue_size)` の直後。 -/
def init (queueSize : Nat) : State T :=
  { queue := RingQueue.new queueSize, producerPc := .idle, consumerPc := .idle,
    claimed := [], taken := [], peeked := [], replies := [], acted := [] }

/-! ## producer の一歩 -/

/-- producer thread の一歩（`offer`）。idle なら何もしない。 -/
def stepProducer (σ : State T) : State T :=
  let q := σ.queue
  match σ.producerPc with
  | .idle => σ
  | .loadProducer v => { σ with producerPc := .loadConsumer v q.producer }
  | .loadConsumer v p =>
    if p < q.capacity ∨ p - q.capacity < q.sequenceNumber then
      { σ with producerPc := .loadId v p }
    else { σ with producerPc := .idle, replies := σ.replies ++ [.offered false] }
  | .loadId v p =>
    if (q.ringBuffer (q.pos p)).id = 0 then { σ with producerPc := .storeProducer v p }
    else { σ with producerPc := .loadProducer v }
  | .storeProducer v p =>
    { σ with queue := { q with producer := p + 1 }, producerPc := .writeValue v p,
             claimed := σ.claimed ++ [v] }
  | .writeValue v p =>
    { σ with queue := q.setValue (q.pos p) (some v), producerPc := .storeId v p }
  | .storeId _ p =>
    { σ with queue := q.setId (q.pos p) p, producerPc := .idle,
             replies := σ.replies ++ [.offered true] }

/-! ## consumer の一歩 -/

/-- consumer thread の一歩（`poll`、`drain`、`peek`）。idle と panic の後は何もしない。 -/
def stepConsumer (σ : State T) : State T :=
  let q := σ.queue
  match σ.consumerPc with
  | .idle => σ
  | .panicked => σ
  | .pollLoadSeq => { σ with consumerPc := .pollLoadProducer q.sequenceNumber }
  | .pollLoadProducer s =>
    if q.producer > s then { σ with consumerPc := .pollLoadId s }
    else { σ with consumerPc := .idle, replies := σ.replies ++ [.polled none] }
  | .pollLoadId s =>
    if (q.ringBuffer (q.pos s)).id = s then { σ with consumerPc := .pollStoreSeq s }
    else { σ with consumerPc := .pollLoadSeq }
  | .pollStoreSeq s =>
    { σ with queue := { q with sequenceNumber := s + 1 }, consumerPc := .pollTake s }
  | .pollTake s =>
    let v := (q.ringBuffer (q.pos s)).value
    { σ with queue := q.setValue (q.pos s) none, consumerPc := .pollClear s v,
             taken := σ.taken ++ [(s, v)] }
  | .pollClear s v =>
    { σ with queue := q.setId (q.pos s) 0, consumerPc := .idle,
             replies := σ.replies ++ [.polled v] }
  | .drainLoadProducer limit => { σ with consumerPc := .drainLoadSeq limit q.producer }
  | .drainLoadSeq limit p =>
    if p ≤ q.sequenceNumber then
      { σ with consumerPc := .idle, replies := σ.replies ++ [.drained 0] }
    else
      { σ with consumerPc := .drainStoreSeq q.sequenceNumber (min limit (p - q.sequenceNumber)) }
  | .drainStoreSeq s request =>
    if 0 < request then
      { σ with queue := { q with sequenceNumber := s + request },
               consumerPc := .drainLoadId s request 0 }
    else
      { σ with queue := { q with sequenceNumber := s + request }, consumerPc := .idle,
               replies := σ.replies ++ [.drained request] }
  | .drainLoadId s request i =>
    if (q.ringBuffer (q.pos (s + i))).id = s + i then
      { σ with consumerPc := .drainTake s request i }
    else σ
  | .drainTake s request i =>
    let v := (q.ringBuffer (q.pos (s + i))).value
    { σ with queue := q.setValue (q.pos (s + i)) none, consumerPc := .drainClear s request i v,
             taken := σ.taken ++ [(s + i, v)] }
  | .drainClear s request i v =>
    match v with
    | none => { σ with queue := q.setId (q.pos (s + i)) 0, consumerPc := .panicked }
    | some t =>
      if i + 1 < request then
        { σ with queue := q.setId (q.pos (s + i)) 0, consumerPc := .drainLoadId s request (i + 1),
                 acted := σ.acted ++ [t] }
      else
        { σ with queue := q.setId (q.pos (s + i)) 0, consumerPc := .idle,
                 acted := σ.acted ++ [t], replies := σ.replies ++ [.drained request] }
  | .peekLoadSeq => { σ with consumerPc := .peekLoadProducer q.sequenceNumber }
  | .peekLoadProducer s =>
    if q.producer > s then { σ with consumerPc := .peekLoadId s }
    else { σ with consumerPc := .idle, replies := σ.replies ++ [.peeked none] }
  | .peekLoadId s =>
    if (q.ringBuffer (q.pos s)).id = s then { σ with consumerPc := .peekRead s }
    else { σ with consumerPc := .idle, replies := σ.replies ++ [.peeked none] }
  | .peekRead s =>
    let v := (q.ringBuffer (q.pos s)).value
    { σ with consumerPc := .idle, peeked := σ.peeked ++ [(s, v)],
             replies := σ.replies ++ [.peeked v] }

/-! ## 全体の一歩 -/

/-- 実行の一歩：idle な thread が呼び出しを始めるか、どちらかの thread が一歩進む。 -/
inductive Action (T : Type)
  | call (c : Call T)
  | producer
  | consumer

/-- 一歩。起こせない動作（動いている thread への呼び出し、idle な thread の一歩）は `none`。 -/
def step (σ : State T) : Action T → Option (State T)
  | .call (.offer v) =>
    if σ.producerPc.isIdle then some { σ with producerPc := .loadProducer v } else none
  | .call .poll =>
    if σ.consumerPc.isIdle then some { σ with consumerPc := .pollLoadSeq } else none
  | .call (.drain limit) =>
    if σ.consumerPc.isIdle then some { σ with consumerPc := .drainLoadProducer limit } else none
  | .call .peek =>
    if σ.consumerPc.isIdle then some { σ with consumerPc := .peekLoadSeq } else none
  | .producer => if σ.producerPc.isIdle then none else some (stepProducer σ)
  | .consumer => if σ.consumerPc.isIdle then none else some (stepConsumer σ)

/-- 到達可能な状態。 -/
abbrev Reach (queueSize : Nat) (σ : State T) : Prop := Reachable step (init queueSize) σ

/-! ## 一度に一つずつ呼ぶ実行 -/

/-- 呼び出しを走らせる thread の一歩と、その thread が idle に戻ったかの判定：`offer` は producer、
ほかは consumer。 -/
def callThread : Call T → (State T → State T) × (State T → Bool)
  | .offer _ => (stepProducer, fun σ => σ.producerPc.isIdle)
  | _ => (stepConsumer, fun σ => σ.consumerPc.isIdle)

/-- 呼び出し `c` を始めて、呼んだ thread だけを idle に戻るまで進める。 -/
abbrev CallRuns : State T → Call T → State T → Prop := RustCommon.CallRuns step .call callThread

/-- 呼び出しの列を、一つずつ最後まで走らせる。 -/
abbrev SeqRun : State T → List (Call T) → State T → Prop := RustCommon.SeqRun CallRuns

end RustCommon.Queue.Spsc
