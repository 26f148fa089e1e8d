import RustCommon.Basic

/-!
# MRSW map：thread ごとの step

`mrsw_map.rs` の `MrswMap` を、一つの writer thread（`add_event`、`commit`）と何個でもよい
reader thread（`get`）が共有 memory を一歩ずつ読み書きする状態機械として書く。
一歩は `current_reader` の load / store、`reader_count` の `fetch_add` / load、`state` の store、
map の lookup、event の適用の始まりと終わり、`event_stream` の push / pop のどれか一つである。
memory は sequentially consistent とする。

* `HashMap<K, V>` は `K → Option V` で表す。`ApplyChanges::apply` は純粋な関数
  `apply : (K → Option V) → E → (K → Option V)` で、step 関数の引数にする。
* `get` の `act` は純粋な関数なので、`act` に渡した値（lookup の結果）を返り値の代わりに記録する。
* `new` の `AtomicPtr` は関数の局所変数 `reader` を指したまま、`reader` は `map1` に move される。
  だから最初の `commit` までの `current_reader` はどの container も指さない（`none`）。
  そこを dereference した `get` は未定義動作で、reader thread は `undefined` で止まる。
* `reader_count` は `AtomicU32` なので `UInt32` で持つ。
-/

namespace RustCommon.Map.Mrsw

/-- `READER`：container の `state` の値。 -/
def READER : Nat := 1

/-- `WRITER`：container の `state` の値。 -/
def WRITER : Nat := 2

@[simp] theorem READER_ne_WRITER : READER ≠ WRITER := by decide

/-- `MrswMap` の二つの container。field `map1` と `map2`。 -/
inductive Which
  | map1
  | map2
deriving DecidableEq, Repr

/-- もう一方の container。 -/
def Which.other : Which → Which
  | .map1 => .map2
  | .map2 => .map1

@[simp] theorem Which.other_other (w : Which) : w.other.other = w := by cases w <;> rfl

@[simp] theorem Which.other_ne (w : Which) : w.other ≠ w := by cases w <;> decide

@[simp] theorem Which.ne_other (w : Which) : w ≠ w.other := fun h => w.other_ne h.symm

/-- `MapContainer`。 -/
@[ext]
structure MapContainer (K V E : Type) where
  map : K → Option V
  /-- live な reader の数（`AtomicU32`）。 -/
  readerCount : UInt32
  /-- `READER` か `WRITER`。 -/
  state : Nat
  /-- writer になったときに適用する event（`VecDeque`）。 -/
  eventStream : List E

variable {K V E : Type}

/-- `MapContainer::new(starting_map, initial_state, event_stream_size)`。
`event_stream_size` は `VecDeque` の容量の予約だけで、値に効かない。 -/
def MapContainer.new (startingMap : K → Option V) (initialState : Nat) : MapContainer K V E :=
  { map := startingMap, readerCount := 0, state := initialState, eventStream := [] }

/-- writer thread の program counter。 -/
inductive WriterPc (E : Type)
  | idle
  /-- `add_event`：`map1.state` を読んで writer を選ぶ。 -/
  | addEvent (event : E)
  /-- `apply_int(writer, &event)` の途中：container `w` の map を書き換えている。 -/
  | addApplying (w : Which) (event : E)
  /-- `add_event_int(reader, event)`：container `r` の `event_stream` に積む。 -/
  | addPush (r : Which) (event : E)
  /-- `commit`：`map1.state` を読んで writer を選ぶ。 -/
  | commit
  /-- `writer.state.store(READER)`。 -/
  | commitStoreWriterState (w : Which)
  /-- `reader.state.store(WRITER)`。 -/
  | commitStoreReaderState (r : Which)
  /-- `current_reader.store(reader)`。 -/
  | commitStoreCurrent (r : Which)
  /-- `reader.reader_count` が 0 になるまで待つ loop。 -/
  | commitWait (r : Which)
  /-- `reader.event_stream.pop_front()`。 -/
  | commitPop (r : Which)
  /-- `apply_int(reader, &e)` の途中：container `r` の map を書き換えている。 -/
  | commitApplying (r : Which) (event : E)

/-- reader thread の program counter。 -/
inductive ReaderPc (K V : Type)
  | idle
  /-- `get`：`current_reader.load`。 -/
  | getLoad (key : K)
  /-- 一回目の `reader_count.fetch_add(1)`。 -/
  | getIncrement (c : Which) (key : K)
  /-- `map.get(&key)` を読み、`act` に渡す。 -/
  | getLookup (c : Which) (key : K)
  /-- 二回目の `reader_count.fetch_add(1)`（減らすのではなく、もう一度足す）。 -/
  | getIncrementAgain (c : Which) (elem : Option V)
  /-- どの container も指さない pointer を dereference した（未定義動作）。 -/
  | undefined

/-- 共有 memory、各 thread の program counter、`get` が `act` に渡した値の履歴。 -/
structure State (K V E : Type) where
  /-- `current_reader`。`none` は `new` の局所変数を指したままの pointer。 -/
  currentReader : Option Which
  map1 : MapContainer K V E
  map2 : MapContainer K V E
  writerPc : WriterPc E
  readers : Nat → ReaderPc K V
  replies : List (Option V)

/-- `MrswMap::new(map1, map2, apply_change)` の直後。 -/
def init (map1 map2 : K → Option V) : State K V E :=
  { currentReader := none, map1 := MapContainer.new map1 READER, map2 := MapContainer.new map2 WRITER,
    writerPc := .idle, readers := fun _ => .idle, replies := [] }

namespace State

/-- container を名前で引く。 -/
def container (σ : State K V E) : Which → MapContainer K V E
  | .map1 => σ.map1
  | .map2 => σ.map2

/-- container を名前で書き換える。 -/
def modify (σ : State K V E) (w : Which) (f : MapContainer K V E → MapContainer K V E) :
    State K V E :=
  match w with
  | .map1 => { σ with map1 := f σ.map1 }
  | .map2 => { σ with map2 := f σ.map2 }

/-- `add_event` と `commit` の冒頭：`map1.state == WRITER` なら `map1` が writer、そうでなければ `map2`。 -/
def writer (σ : State K V E) : Which :=
  if σ.map1.state = WRITER then .map1 else .map2

/-- reader thread `t` の program counter を書き換える。 -/
def setReader (σ : State K V E) (t : Nat) (pc : ReaderPc K V) : State K V E :=
  { σ with readers := Function.update σ.readers t pc }

@[simp] theorem container_modify_self (σ : State K V E) (w : Which) (f) :
    (σ.modify w f).container w = f (σ.container w) := by
  cases w <;> rfl

@[simp] theorem container_modify_other (σ : State K V E) (w : Which) (f) :
    (σ.modify w f).container w.other = σ.container w.other := by
  cases w <;> rfl

end State

/-! ## writer の一歩 -/

variable (apply : (K → Option V) → E → (K → Option V))

/-- writer thread の一歩（`add_event`、`commit`）。idle なら何もしない。 -/
def stepWriter (σ : State K V E) : State K V E :=
  match σ.writerPc with
  | .idle => σ
  | .addEvent e => { σ with writerPc := .addApplying σ.writer e }
  | .addApplying w e =>
    { σ.modify w (fun c => { c with map := apply c.map e }) with writerPc := .addPush w.other e }
  | .addPush r e =>
    { σ.modify r (fun c => { c with eventStream := c.eventStream ++ [e] }) with writerPc := .idle }
  | .commit => { σ with writerPc := .commitStoreWriterState σ.writer }
  | .commitStoreWriterState w =>
    { σ.modify w (fun c => { c with state := READER }) with writerPc := .commitStoreReaderState w.other }
  | .commitStoreReaderState r =>
    { σ.modify r (fun c => { c with state := WRITER }) with writerPc := .commitStoreCurrent r }
  | .commitStoreCurrent r => { σ with currentReader := some r, writerPc := .commitWait r }
  | .commitWait r =>
    if (σ.container r).readerCount = 0 then { σ with writerPc := .commitPop r } else σ
  | .commitPop r =>
    match (σ.container r).eventStream with
    | [] => { σ with writerPc := .idle }
    | e :: es => { σ.modify r (fun c => { c with eventStream := es }) with writerPc := .commitApplying r e }
  | .commitApplying r e =>
    { σ.modify r (fun c => { c with map := apply c.map e }) with writerPc := .commitPop r }

/-! ## reader の一歩 -/

/-- reader thread `t` の一歩（`get`）。idle と未定義動作の後は何もしない。 -/
def stepReader (t : Nat) (σ : State K V E) : State K V E :=
  match σ.readers t with
  | .idle => σ
  | .undefined => σ
  | .getLoad k =>
    match σ.currentReader with
    | none => σ.setReader t .undefined
    | some c => σ.setReader t (.getIncrement c k)
  | .getIncrement c k =>
    (σ.modify c fun m => { m with readerCount := m.readerCount + 1 }).setReader t (.getLookup c k)
  | .getLookup c k => σ.setReader t (.getIncrementAgain c ((σ.container c).map k))
  | .getIncrementAgain c elem =>
    { (σ.modify c fun m => { m with readerCount := m.readerCount + 1 }).setReader t .idle with
      replies := σ.replies ++ [elem] }

/-! ## 全体の一歩 -/

/-- `MrswMap` への呼び出し。`get` はどの reader thread が呼ぶかを持つ。 -/
inductive Call (K E : Type)
  | addEvent (event : E)
  | commit
  | get (t : Nat) (key : K)

/-- idle かどうか。 -/
def WriterPc.isIdle : WriterPc E → Bool
  | .idle => true
  | _ => false

/-- idle かどうか。未定義動作の後は idle に戻らない。 -/
def ReaderPc.isIdle : ReaderPc K V → Bool
  | .idle => true
  | _ => false

/-- 実行の一歩：idle な thread が呼び出しを始めるか、どれかの thread が一歩進む。 -/
inductive Action (K E : Type)
  | call (c : Call K E)
  | writer
  | reader (t : Nat)

/-- 一歩。起こせない動作は `none`。 -/
def step (σ : State K V E) : Action K E → Option (State K V E)
  | .call (.addEvent e) => if σ.writerPc.isIdle then some { σ with writerPc := .addEvent e } else none
  | .call .commit => if σ.writerPc.isIdle then some { σ with writerPc := .commit } else none
  | .call (.get t k) => if (σ.readers t).isIdle then some (σ.setReader t (.getLoad k)) else none
  | .writer => if σ.writerPc.isIdle then none else some (stepWriter apply σ)
  | .reader t => if (σ.readers t).isIdle then none else some (stepReader t σ)

/-- `apply` を使う `MrswMap::new(m₁, m₂, apply)` から到達できる状態。 -/
abbrev Reach (m₁ m₂ : K → Option V) (σ : State K V E) : Prop := Reachable (step apply) (init m₁ m₂) σ

/-! ## 一度に一つずつ呼ぶ実行 -/

/-- 呼び出しを走らせる thread の一歩と、その thread が idle に戻ったかの判定：`get` は呼んだ reader
thread `t`、ほかは writer。 -/
def callThread : Call K E → (State K V E → State K V E) × (State K V E → Bool)
  | .get t _ => (stepReader t, fun σ => (σ.readers t).isIdle)
  | _ => (stepWriter apply, fun σ => σ.writerPc.isIdle)

/-- 呼び出し `c` を始めて、呼んだ thread だけを idle に戻るまで進める。 -/
abbrev CallRuns : State K V E → Call K E → State K V E → Prop :=
  RustCommon.CallRuns (step apply) .call (callThread apply)

/-- 呼び出しの列を、一つずつ最後まで走らせる。 -/
abbrev SeqRun : State K V E → List (Call K E) → State K V E → Prop := RustCommon.SeqRun (CallRuns apply)

/-! ## reader が書き換え中の container を読む

`commit` は tag を入れ替えた後、`current_reader` に `reader`（いま `WRITER` の tag を付けた方）を
書く。そのため次の `add_event` は、reader が読んでいる container に event を適用する。
`commit` の後に reader 0 が `get` を始めて container を読む手前まで進み、writer が `add_event` を
始めると、二つが同じ container `map1` の上にいる。
-/

/-- reader `t` が container `c` を読み終えていない（`current_reader` から `c` を読んだ後）。 -/
def ReaderPc.holds (c : Which) : ReaderPc K V → Prop
  | .getIncrement c' _ | .getLookup c' _ | .getIncrementAgain c' _ => c' = c
  | _ => False

/-- writer が container `c` に event を適用している途中である。 -/
def WriterPc.applying (c : Which) : WriterPc E → Prop
  | .addApplying c' _ | .commitApplying c' _ => c' = c
  | _ => False

/-- 空の map から `commit` し、reader 0 が key 1 の `get` を、writer が `add_event (1, 7)` を始める。 -/
def readWhileApplyTrace : List (Action Nat (Nat × Nat)) :=
  [.call .commit] ++ List.replicate 6 .writer ++
  [.call (.get 0 1), .reader 0, .reader 0, .call (.addEvent (1, 7)), .writer]

/-- `(k, v)` を入れる applier（テストの `TestApplyChange` の形）。 -/
def insertApply (map : Nat → Option Nat) (e : Nat × Nat) : Nat → Option Nat :=
  Function.update map e.1 (some e.2)

/--
**reader は writer が書き換えている container を読みうる。**
`readWhileApplyTrace` の後、reader 0 は `map1` を読む途中（lookup の直前）で、
writer は `map1` に event を適用している途中である。
-/
theorem mrsw_reader_meets_writer :
    ∃ σ, run (step insertApply) (init (fun _ => none) (fun _ => none)) readWhileApplyTrace = some σ ∧
      (σ.readers 0).holds .map1 ∧ σ.writerPc.applying .map1 := by
  rw [run_eq_foldl]
  simp [readWhileApplyTrace, step, stepWriter, stepReader, init, MapContainer.new, State.writer,
    State.modify, State.container, State.setReader, WriterPc.isIdle, ReaderPc.isIdle, READER, WRITER,
    Which.other, ReaderPc.holds, WriterPc.applying, Function.update_apply]

end RustCommon.Map.Mrsw
