import RustCommon.Map.Mrsw

/-!
# MRSW map：一度に一つずつ呼ぶ実行

`Mrsw.lean` の step を、呼び出しを一つずつ最後まで走らせる実行（`SeqRun`）にまとめる。

1. 呼び出しを一人で走らせたときに残る状態を `State.afterAddEvent`、`State.afterCommit`、
   `State.afterGet` と書き、`CallRuns` がちょうどそれになることを示す（`callRuns_addEvent` ほか）。
   `commit` は reader 側 container の `reader_count` が 0 でなければ待つ loop から出ない。
   `get` は `current_reader` がどの container も指さないうちは走り切らない。
2. その上で、一つずつ呼ぶ実行が保つ関係 `Between` を示す：writer の map は reader の map に
   reader の `event_stream` を適用したものである。
-/

namespace RustCommon.Map.Mrsw

variable {K V E : Type} (apply : (K → Option V) → E → (K → Option V))

/-! ## 一人で走った呼び出しが残す状態 -/

namespace State

/-- `add_event(e)` を一人で走らせた後：writer の map に `e` を適用し、reader の `event_stream` に積む。 -/
def afterAddEvent (σ : State K V E) (e : E) : State K V E :=
  { (σ.modify σ.writer fun c => { c with map := apply c.map e }).modify σ.writer.other
      (fun c => { c with eventStream := c.eventStream ++ [e] }) with writerPc := .idle }

/-- `commit` を一人で走らせた後：tag を入れ替え、`current_reader` を `WRITER` の tag を付けた方に
向け、その `event_stream` を全部適用する。 -/
def afterCommit (σ : State K V E) : State K V E :=
  { (σ.modify σ.writer fun c => { c with state := READER }).modify σ.writer.other (fun c =>
      { c with state := WRITER, map := c.eventStream.foldl apply c.map, eventStream := [] }) with
    currentReader := some σ.writer.other, writerPc := .idle }

/-- reader thread `t` の `get(k)` を一人で走らせた後：container `c` の `reader_count` に 2 を足し、
`c` の map の `k` を返す。 -/
def afterGet (σ : State K V E) (t : Nat) (k : K) (c : Which) : State K V E :=
  { (σ.modify c fun m => { m with readerCount := m.readerCount + 1 + 1 }).setReader t .idle with
    replies := σ.replies ++ [(σ.container c).map k] }

end State

/-! ## 一人で走らせる -/

/-- `add_event(e)` は 3 歩で `afterAddEvent` に着く。 -/
theorem addEvent_runs (σ : State K V E) (e : E) :
    SoloRuns (stepWriter apply) (fun σ => σ.writerPc.isIdle) { σ with writerPc := .addEvent e }
      (σ.afterAddEvent apply e) := by
  refine ⟨3, ?_⟩
  by_cases hW : σ.map1.state = WRITER <;>
    simp [soloRun, stepWriter, WriterPc.isIdle, State.afterAddEvent, State.writer, State.modify, hW,
      Which.other]

/-- `commit` の後半の loop：container `r` の `event_stream` が空になるまで取り出して適用する
（一つにつき 2 歩、最後に空を見て 1 歩）。 -/
theorem soloRun_commitPop (r : Which) : ∀ (es : List E) (σ : State K V E),
    σ.writerPc = .commitPop r → (σ.container r).eventStream = es →
    soloRun (stepWriter apply) (fun σ => σ.writerPc.isIdle) (2 * es.length + 1) σ =
      some { σ.modify r (fun c => { c with map := es.foldl apply c.map, eventStream := [] }) with
        writerPc := .idle }
  | [], σ, hpc, hes => by
    cases r <;> simp_all [soloRun, stepWriter, WriterPc.isIdle, State.modify, State.container,
      MapContainer.ext_iff]
  | e :: es, σ, hpc, hes => by
    have ih := soloRun_commitPop r es
      { σ.modify r (fun c => { c with map := apply c.map e, eventStream := es }) with
        writerPc := .commitPop r } rfl (by cases r <;> rfl)
    rw [show 2 * (e :: es).length + 1 = 2 * es.length + 1 + 1 + 1 by simp; omega]
    cases r <;> simp_all [soloRun, stepWriter, WriterPc.isIdle, State.modify, State.container]

/-- `commit` が tag を入れ替えて `current_reader` を書き、`reader_count` を待つ loop に入った状態。 -/
def State.commitWaiting (σ : State K V E) : State K V E :=
  { (σ.modify σ.writer fun c => { c with state := READER }).modify σ.writer.other
      (fun c => { c with state := WRITER }) with
    currentReader := some σ.writer.other, writerPc := .commitWait σ.writer.other }

theorem State.commitWaiting_reader (σ : State K V E) :
    σ.commitWaiting.container σ.writer.other = { σ.container σ.writer.other with state := WRITER } := by
  unfold State.commitWaiting; generalize σ.writer = w; cases w <;> rfl

/-- `commit` の前半：tag を入れ替え、`current_reader` を書いて、待つ loop に入る（4 歩）。 -/
theorem soloRun_commit (σ : State K V E) (n : Nat) :
    soloRun (stepWriter apply) (fun σ => σ.writerPc.isIdle) (n + 4) { σ with writerPc := .commit } =
      soloRun (stepWriter apply) (fun σ => σ.writerPc.isIdle) n σ.commitWaiting := by
  by_cases hW : σ.map1.state = WRITER <;>
    simp [soloRun, stepWriter, WriterPc.isIdle, State.commitWaiting, State.writer, State.modify, hW,
      Which.other]

/-- 待つ loop の一歩：reader 側の `reader_count` が 0 なら抜け、そうでなければ同じ状態にとどまる。 -/
theorem stepWriter_commitWaiting (σ : State K V E) :
    stepWriter apply σ.commitWaiting =
      if (σ.container σ.writer.other).readerCount = 0 then
        { σ.commitWaiting with writerPc := .commitPop σ.writer.other }
      else σ.commitWaiting := by
  show (if (σ.commitWaiting.container σ.writer.other).readerCount = 0 then _ else _) = _
  rw [State.commitWaiting_reader]

/-- reader 側の `reader_count` が 0 なら、`commit` は `afterCommit` に着く。 -/
theorem commit_runs (σ : State K V E) (hrc : (σ.container σ.writer.other).readerCount = 0) :
    SoloRuns (stepWriter apply) (fun σ => σ.writerPc.isIdle) { σ with writerPc := .commit }
      (σ.afterCommit apply) := by
  refine ⟨2 * (σ.container σ.writer.other).eventStream.length + 1 + 1 + 4, ?_⟩
  rw [soloRun_commit, soloRun, stepWriter_commitWaiting, if_pos hrc]
  rw [soloRun_commitPop apply _ _ _ rfl (by
    show (σ.commitWaiting.container σ.writer.other).eventStream = _
    rw [State.commitWaiting_reader])]
  unfold State.afterCommit State.commitWaiting
  generalize σ.writer = w
  cases w <;> rfl

/-- reader 側の `reader_count` が 0 でなければ、`commit` は待つ loop から出ない。 -/
theorem commit_hangs (σ : State K V E) (hrc : (σ.container σ.writer.other).readerCount ≠ 0)
    (σ' : State K V E) :
    ¬ SoloRuns (stepWriter apply) (fun σ => σ.writerPc.isIdle) { σ with writerPc := .commit } σ' := by
  have hfix : ∀ n, soloRun (stepWriter apply) (fun σ => σ.writerPc.isIdle) n σ.commitWaiting = none :=
    soloRun_eq_none_of_fixed rfl ((stepWriter_commitWaiting apply σ).trans (if_neg hrc))
  rintro ⟨_ | _ | _ | _ | n, hn⟩
  iterate 4 simp [soloRun, stepWriter, WriterPc.isIdle] at hn
  rw [soloRun_commit, hfix] at hn
  cases hn

/-- `current_reader` が container `c` を指していれば、`get(k)` は 4 歩で `afterGet` に着く。 -/
theorem get_runs (σ : State K V E) (t : Nat) (k : K) {c : Which} (hc : σ.currentReader = some c) :
    SoloRuns (stepReader t) (fun σ => (σ.readers t).isIdle) (σ.setReader t (.getLoad k))
      (σ.afterGet t k c) := by
  refine ⟨4, ?_⟩
  cases c <;> simp [soloRun, stepReader, ReaderPc.isIdle, State.setReader, State.afterGet, State.modify,
    State.container, hc]

/-- `current_reader` がまだどの container も指さなければ、`get` は未定義動作で止まり、走り切らない。 -/
theorem get_undefined (σ : State K V E) (t : Nat) (k : K) (hc : σ.currentReader = none)
    (σ' : State K V E) :
    ¬ SoloRuns (stepReader t) (fun σ => (σ.readers t).isIdle) (σ.setReader t (.getLoad k)) σ' := by
  intro hr
  have hnext : stepReader t (σ.setReader t (.getLoad k)) =
      (σ.setReader t (.getLoad k)).setReader t .undefined := by
    simp [stepReader, State.setReader, hc]
  obtain ⟨n, hn⟩ := hnext ▸ hr.next_of (by simp [State.setReader, ReaderPc.isIdle])
  rw [soloRun_eq_none_of_fixed (by simp [State.setReader, ReaderPc.isIdle])
    (by simp [stepReader, State.setReader])] at hn
  cases hn

/-! ## 一つの呼び出しが残す状態 -/

section CallRuns

variable {σ σ' : State K V E}

theorem callRuns_addEvent (hw : σ.writerPc = .idle) (e : E) :
    CallRuns apply σ (.addEvent e) σ' ↔ σ' = σ.afterAddEvent apply e := by
  simp only [CallRuns, RustCommon.CallRuns, callThread, step, hw, WriterPc.isIdle, if_true, Option.some.injEq,
    exists_eq_left']
  exact ⟨fun h => h.unique (addEvent_runs apply σ e), fun h => h ▸ addEvent_runs apply σ e⟩

theorem callRuns_commit (hw : σ.writerPc = .idle) :
    CallRuns apply σ .commit σ' ↔
      (σ.container σ.writer.other).readerCount = 0 ∧ σ' = σ.afterCommit apply := by
  simp only [CallRuns, RustCommon.CallRuns, callThread, step, hw, WriterPc.isIdle, if_true, Option.some.injEq,
    exists_eq_left']
  by_cases hrc : (σ.container σ.writer.other).readerCount = 0
  · simp only [hrc, true_and]
    exact ⟨fun h => h.unique (commit_runs apply σ hrc), fun h => h ▸ commit_runs apply σ hrc⟩
  · simpa only [hrc, false_and, iff_false] using commit_hangs apply σ hrc σ'

theorem callRuns_get {t : Nat} (ht : σ.readers t = .idle) (k : K) :
    CallRuns apply σ (.get t k) σ' ↔ ∃ c, σ.currentReader = some c ∧ σ' = σ.afterGet t k c := by
  simp only [CallRuns, RustCommon.CallRuns, callThread, step, ht, ReaderPc.isIdle, if_true, Option.some.injEq,
    exists_eq_left']
  cases hc : σ.currentReader with
  | none => simpa using get_undefined σ t k hc σ'
  | some c =>
    simp only [Option.some.injEq, exists_eq_left']
    exact ⟨fun h => h.unique (get_runs σ t k hc), fun h => h ▸ get_runs σ t k hc⟩

end CallRuns

/-! ## 呼び出しの後の container

`afterAddEvent` と `afterCommit` は、呼ぶ前の writer `σ.writer` とその相手を書き換える。
-/

namespace State

variable (σ : State K V E)

@[simp] theorem writer_afterAddEvent (e : E) : (σ.afterAddEvent apply e).writer = σ.writer := by
  by_cases hW : σ.map1.state = WRITER <;> simp [afterAddEvent, writer, modify, hW, Which.other]

theorem afterAddEvent_writer (e : E) : (σ.afterAddEvent apply e).container σ.writer =
    { σ.container σ.writer with map := apply (σ.container σ.writer).map e } := by
  unfold afterAddEvent; generalize σ.writer = w; cases w <;> rfl

theorem afterAddEvent_reader (e : E) : (σ.afterAddEvent apply e).container σ.writer.other =
    { σ.container σ.writer.other with
      eventStream := (σ.container σ.writer.other).eventStream ++ [e] } := by
  unfold afterAddEvent; generalize σ.writer = w; cases w <;> rfl

@[simp] theorem afterAddEvent_currentReader (e : E) :
    (σ.afterAddEvent apply e).currentReader = σ.currentReader := by
  unfold afterAddEvent; generalize σ.writer = w; cases w <;> rfl

@[simp] theorem afterAddEvent_readers (e : E) : (σ.afterAddEvent apply e).readers = σ.readers := by
  unfold afterAddEvent; generalize σ.writer = w; cases w <;> rfl

/-- `commit` の後は、前の reader が writer になる。 -/
@[simp] theorem writer_afterCommit : (σ.afterCommit apply).writer = σ.writer.other := by
  by_cases hW : σ.map1.state = WRITER <;> simp [afterCommit, writer, modify, hW, Which.other]

theorem afterCommit_writer : (σ.afterCommit apply).container σ.writer =
    { σ.container σ.writer with state := READER } := by
  unfold afterCommit; generalize σ.writer = w; cases w <;> rfl

theorem afterCommit_reader : (σ.afterCommit apply).container σ.writer.other =
    { σ.container σ.writer.other with
      state := WRITER,
      map := (σ.container σ.writer.other).eventStream.foldl apply (σ.container σ.writer.other).map,
      eventStream := [] } := by
  unfold afterCommit; generalize σ.writer = w; cases w <;> rfl

@[simp] theorem afterCommit_readers : (σ.afterCommit apply).readers = σ.readers := by
  unfold afterCommit; generalize σ.writer = w; cases w <;> rfl

@[simp] theorem writer_afterGet (t : Nat) (k : K) (c : Which) : (σ.afterGet t k c).writer = σ.writer := by
  cases c <;> rfl

/-- `get` は container の `reader_count` だけを変える。 -/
theorem afterGet_container (t : Nat) (k : K) (c w : Which) :
    (σ.afterGet t k c).container w =
      if w = c then { σ.container w with readerCount := (σ.container w).readerCount + 1 + 1 }
      else σ.container w := by
  cases w <;> cases c <;> rfl

@[simp] theorem afterGet_map (t : Nat) (k : K) (c w : Which) :
    ((σ.afterGet t k c).container w).map = (σ.container w).map := by
  rw [afterGet_container]; split <;> rfl

@[simp] theorem afterGet_eventStream (t : Nat) (k : K) (c w : Which) :
    ((σ.afterGet t k c).container w).eventStream = (σ.container w).eventStream := by
  rw [afterGet_container]; split <;> rfl

@[simp] theorem afterGet_currentReader (t : Nat) (k : K) (c : Which) :
    (σ.afterGet t k c).currentReader = σ.currentReader := by
  cases c <;> rfl

@[simp] theorem afterGet_readers (t : Nat) (k : K) (c : Which) :
    (σ.afterGet t k c).readers = Function.update σ.readers t .idle := by
  cases c <;> rfl

@[simp] theorem afterGet_replies (t : Nat) (k : K) (c : Which) :
    (σ.afterGet t k c).replies = σ.replies ++ [(σ.container c).map k] := rfl

end State

/-! ## 計算できる逐次実行

`CallRuns` は「走り切る」ことを言う関係である。呼び出しと呼び出しの間は thread がみな idle なので、
その結果は `after*` で計算でき、走り切らない呼び出し（待ち続ける `commit`、未定義動作の `get`）は
`none` になる。
-/

/-- 呼び出し一つを一人で走らせた結果。走り切らなければ `none`。 -/
def State.call (σ : State K V E) : Call K E → Option (State K V E)
  | .addEvent e => some (σ.afterAddEvent apply e)
  | .commit =>
    if (σ.container σ.writer.other).readerCount = 0 then some (σ.afterCommit apply) else none
  | .get t k => σ.currentReader.map (σ.afterGet t k)

/-- 呼び出しの列を一つずつ走らせた結果。 -/
def State.calls (σ : State K V E) : List (Call K E) → Option (State K V E)
  | [] => some σ
  | c :: cs => (σ.call apply c).bind fun σ' => σ'.calls cs

/-- writer も reader もみな idle である。 -/
structure Idle (σ : State K V E) : Prop where
  writer : σ.writerPc = .idle
  readers : ∀ t, σ.readers t = .idle

theorem Idle.callRuns_iff {σ σ' : State K V E} (h : Idle σ) (c : Call K E) :
    CallRuns apply σ c σ' ↔ σ.call apply c = some σ' := by
  cases c with
  | addEvent e => rw [callRuns_addEvent apply h.writer, State.call, Option.some.injEq, eq_comm]
  | commit =>
    rw [callRuns_commit apply h.writer, State.call]
    split <;> simp_all [eq_comm]
  | get t k =>
    rw [callRuns_get apply (h.readers t), State.call]
    cases σ.currentReader <;> simp [eq_comm]

theorem Idle.call {σ σ' : State K V E} (h : Idle σ) {c : Call K E} (hc : σ.call apply c = some σ') :
    Idle σ' := by
  cases c with
  | addEvent e =>
    cases hc
    exact ⟨rfl, by rw [State.afterAddEvent_readers]; exact h.readers⟩
  | commit =>
    simp only [State.call] at hc
    split at hc
    · cases hc; exact ⟨rfl, by rw [State.afterCommit_readers]; exact h.readers⟩
    · cases hc
  | get t k =>
    obtain ⟨w, -, rfl⟩ := Option.map_eq_some'.1 hc
    refine ⟨by cases w <;> exact h.writer, fun t' => ?_⟩
    rw [State.afterGet_readers, Function.update_apply]
    split
    · rfl
    · exact h.readers t'

theorem Idle.seqRun_iff {σ σ' : State K V E} (h : Idle σ) (calls : List (Call K E)) :
    SeqRun apply σ calls σ' ↔ σ.calls apply calls = some σ' := by
  induction calls generalizing σ with
  | nil => exact ⟨fun hr => by cases hr; rfl, fun he => by cases he; exact .nil _⟩
  | cons c cs ih =>
    constructor
    · rintro (_ | ⟨hc, hr⟩)
      have hc' := (h.callRuns_iff apply c).1 hc
      simpa [State.calls, hc'] using (ih (h.call apply hc')).1 hr
    · intro he
      obtain ⟨σ₁, hc, hr⟩ := Option.bind_eq_some.1 he
      exact .cons ((h.callRuns_iff apply c).2 hc) ((ih (h.call apply hc)).2 hr)

/--
**一つずつ呼ぶ実行は `State.calls` で計算できる。**
`MrswMap::new(m₁, m₂, apply)` から呼び出しの列を一つずつ走らせて `σ` に着くのは、
`State.calls` が `σ` を返すときちょうどである。どこかの呼び出しが走り切らなければ `none` になる。
-/
theorem mrsw_seqRun_iff_calls (m₁ m₂ : K → Option V) (calls : List (Call K E)) (σ : State K V E) :
    SeqRun apply (init m₁ m₂) calls σ ↔ (init m₁ m₂).calls apply calls = some σ :=
  Idle.seqRun_iff apply ⟨rfl, fun _ => rfl⟩ calls

/-- `commit`、`get`、`commit` の後の `commit` は走り切らない。 -/
example : (init (fun _ => none) (fun _ => none) : State Nat Nat (Nat × Nat)).calls insertApply
    [.commit, .get 0 1, .commit, .commit] = none := rfl

/-! ## 呼び出しの間で保たれる関係 -/

/-- `add_event` の呼び出しなら、渡した event。 -/
def Call.event? : Call K E → Option E
  | .addEvent e => some e
  | _ => none

/-- 呼び出しの列が `add_event` に渡した event を、渡した順に並べたもの。 -/
def events (calls : List (Call K E)) : List E := calls.filterMap Call.event?

@[simp] theorem events_nil : events ([] : List (Call K E)) = [] := rfl

theorem events_cons (c : Call K E) (cs : List (Call K E)) :
    events (c :: cs) = c.event?.toList ++ events cs := by
  cases c <;> simp [events, Call.event?]

theorem events_append (cs ds : List (Call K E)) : events (cs ++ ds) = events cs ++ events ds := by
  simp [events]

/--
一つずつ呼ぶ実行の、呼び出しと呼び出しの間で成り立つ関係。`es` はそれまでに `add_event` に
渡した event である。writer（`WRITER` の tag の container）の map は `m` に `es` を適用したもので、
reader の map に reader の `event_stream` を適用すると writer の map になる。
-/
structure Between (m : K → Option V) (es : List E) (σ : State K V E) : Prop where
  writer_idle : σ.writerPc = .idle
  readers_idle : ∀ t, σ.readers t = .idle
  writer_map : (σ.container σ.writer).map = es.foldl apply m
  catch_up : (σ.container σ.writer.other).eventStream.foldl apply (σ.container σ.writer.other).map =
    (σ.container σ.writer).map
  writer_stream : (σ.container σ.writer).eventStream = []
  /-- 最初の `commit` の後、`current_reader` は writer を指す。 -/
  current : σ.currentReader = none ∨ σ.currentReader = some σ.writer

variable {m : K → Option V} {es : List E} {σ σ' : State K V E}

theorem between_init (m : K → Option V) : Between apply m [] (init m m : State K V E) where
  writer_idle := rfl
  readers_idle _ := rfl
  writer_map := rfl
  catch_up := rfl
  writer_stream := rfl
  current := .inl rfl

theorem Between.afterAddEvent (h : Between apply m es σ) (e : E) :
    Between apply m (es ++ [e]) (σ.afterAddEvent apply e) where
  writer_idle := rfl
  readers_idle := by simpa using h.readers_idle
  writer_map := by simp [State.afterAddEvent_writer, h.writer_map]
  catch_up := by simp [State.afterAddEvent_writer, State.afterAddEvent_reader, h.catch_up]
  writer_stream := by simp [State.afterAddEvent_writer, h.writer_stream]
  current := by simpa using h.current

theorem Between.afterCommit (h : Between apply m es σ) :
    Between apply m es (σ.afterCommit apply) where
  writer_idle := rfl
  readers_idle := by simpa using h.readers_idle
  writer_map := by simp [State.afterCommit_reader, h.catch_up, h.writer_map]
  catch_up := by simp [State.afterCommit_reader, State.afterCommit_writer, h.catch_up, h.writer_stream]
  writer_stream := by simp [State.afterCommit_reader]
  current := .inr (by rw [State.writer_afterCommit]; rfl)

theorem Between.afterGet (h : Between apply m es σ) (t : Nat) (k : K) (c : Which) :
    Between apply m es (σ.afterGet t k c) where
  writer_idle := by cases c <;> exact h.writer_idle
  readers_idle t' := by
    simp only [State.afterGet_readers, Function.update_apply]; split <;> simp [h.readers_idle]
  writer_map := by simpa using h.writer_map
  catch_up := by simpa using h.catch_up
  writer_stream := by simpa using h.writer_stream
  current := by simpa using h.current

/-- 一つの呼び出しが走り切れば、`Between` は続く。`get` が返すのは writer の map の値である。 -/
theorem Between.callRuns (h : Between apply m es σ) {c : Call K E} (hc : CallRuns apply σ c σ') :
    Between apply m (es ++ c.event?.toList) σ' := by
  cases c with
  | addEvent e => rw [(callRuns_addEvent apply h.writer_idle e).1 hc]; exact h.afterAddEvent apply e
  | commit =>
    rw [((callRuns_commit apply h.writer_idle).1 hc).2]; simpa [Call.event?] using h.afterCommit apply
  | get t k =>
    obtain ⟨c, -, rfl⟩ := (callRuns_get apply (h.readers_idle t) k).1 hc
    simpa [Call.event?] using h.afterGet apply t k c

theorem SeqRun.between {calls : List (Call K E)} (hr : SeqRun apply σ calls σ')
    (h : Between apply m es σ) : Between apply m (es ++ events calls) σ' := by
  induction hr generalizing es with
  | nil => simpa using h
  | cons hc _ ih => simpa [events_cons] using ih (h.callRuns apply hc)

/-! ## `commit` の後 -/

/-- `commit` が戻った後、次の `add_event` までの形：どちらの container の map も `m` に `es` を
適用したもので、`event_stream` はどちらも空である。 -/
structure Committed (m : K → Option V) (es : List E) (σ : State K V E) : Prop where
  map : ∀ w, (σ.container w).map = es.foldl apply m
  stream : ∀ w, (σ.container w).eventStream = []

theorem Which.eq_or_eq_other (w w' : Which) : w' = w ∨ w' = w.other := by
  cases w <;> cases w' <;> simp [Which.other]

theorem Between.committed_afterCommit (h : Between apply m es σ) :
    Committed apply m es (σ.afterCommit apply) where
  map w := by
    rcases Which.eq_or_eq_other σ.writer w with rfl | rfl
    · simp [State.afterCommit_writer, h.writer_map]
    · simp [State.afterCommit_reader, h.catch_up, h.writer_map]
  stream w := by
    rcases Which.eq_or_eq_other σ.writer w with rfl | rfl
    · simp [State.afterCommit_writer, h.writer_stream]
    · simp [State.afterCommit_reader]

/-- `commit` の後に続く `get` は、どれも `m` に `es` を適用した map の値を返す。 -/
theorem SeqRun.gets {gets : List (Nat × K)} (hr : SeqRun apply σ (gets.map fun g => .get g.1 g.2) σ')
    (h : Between apply m es σ) (hc : Committed apply m es σ) :
    Committed apply m es σ' ∧ σ'.replies = σ.replies ++ gets.map (fun g => es.foldl apply m g.2) := by
  induction gets generalizing σ with
  | nil => cases hr; simpa using hc
  | cons g gets ih =>
    cases hr with
    | cons hget hr =>
      obtain ⟨c, -, rfl⟩ := (callRuns_get apply (h.readers_idle g.1) g.2).1 hget
      have ⟨hc', hrep⟩ := ih hr (h.afterGet apply g.1 g.2 c)
        ⟨fun w => by simpa using hc.map w, fun w => by simpa using hc.stream w⟩
      exact ⟨hc', by simp [hrep, hc.map c]⟩

/-- `current_reader` が container を指していれば、どの reader の `get` をどう並べた列も走り切る。 -/
theorem Between.gets_run {c : Which} : ∀ (gets : List (Nat × K)) {σ : State K V E},
    Between apply m es σ → σ.currentReader = some c →
    ∃ σ', SeqRun apply σ (gets.map fun g => .get g.1 g.2) σ'
  | [], σ, _, _ => ⟨σ, .nil σ⟩
  | g :: gets, σ, h, hc =>
    have ⟨σ', hr⟩ := Between.gets_run gets (h.afterGet apply g.1 g.2 c) (by simpa using hc)
    ⟨σ', .cons ((callRuns_get apply (h.readers_idle g.1) g.2).2 ⟨c, hc, rfl⟩) hr⟩

/--
**一つずつ呼ぶ実行では、`commit` が戻ると二つの container が追いつき、続く `get` はその値を返す。**
どの実行でも呼び出しの間は `Between` が成り立つ（writer の map は `m` にそれまでの event を
すべて適用したもの、reader の map に reader の `event_stream` を適用すると writer の map になり、
writer の `event_stream` は空）。実行が `commit` で終わるなら、二つの map はともに `m` にそれまでの event を
すべて適用したもの、`event_stream` はともに空である（`Committed`）。そこから、どの reader の `get` を
どう並べた列も走り切り、どう走っても各 `get(k)` はその map の `k` の値を返す。
-/
theorem mrsw_seq_catch_up (m : K → Option V) {calls : List (Call K E)} {σ : State K V E}
    (h : SeqRun apply (init m m) calls σ) :
    Between apply m (events calls) σ ∧
      ∀ pre : List (Call K E), calls = pre ++ [.commit] →
        Committed apply m (events calls) σ ∧
        ∀ gets : List (Nat × K),
          (∃ σ', SeqRun apply σ (gets.map fun g => .get g.1 g.2) σ') ∧
          ∀ σ', SeqRun apply σ (gets.map fun g => .get g.1 g.2) σ' →
            Committed apply m (events calls) σ' ∧
            σ'.replies = σ.replies ++ gets.map (fun g => (events calls).foldl apply m g.2) := by
  refine ⟨by simpa using SeqRun.between apply h (between_init apply m), ?_⟩
  rintro pre rfl
  obtain ⟨σ₀, h₀, h₁⟩ := SeqRun.append h
  have hb : Between apply m (events pre) σ₀ := by simpa using SeqRun.between apply h₀ (between_init apply m)
  cases h₁ with
  | cons hcommit hnil =>
    cases hnil
    obtain ⟨-, rfl⟩ := (callRuns_commit apply hb.writer_idle).1 hcommit
    have hev : events (pre ++ [.commit]) = events pre := by simp [events_append, events, Call.event?]
    rw [hev]
    exact ⟨hb.committed_afterCommit apply, fun gets =>
      ⟨Between.gets_run apply gets (hb.afterCommit apply) rfl,
        fun _ hr => SeqRun.gets apply hr (hb.afterCommit apply) (hb.committed_afterCommit apply)⟩⟩

/-- 空の map に `add_event (1, 7)`、`commit`、`add_event (2, 8)`、`commit` を順に呼ぶ。二度の `commit` で
二つの container の役は入れ替わって戻る。 -/
def catchUpCalls : List (Call Nat (Nat × Nat)) := [.addEvent (1, 7), .commit, .addEvent (2, 8), .commit]

/-- `catchUpCalls` を一つずつ走らせた後の状態。 -/
def catchUpState : State Nat Nat (Nat × Nat) :=
  ((((init (fun _ => none) (fun _ => none)).afterAddEvent insertApply (1, 7)).afterCommit insertApply).afterAddEvent
    insertApply (2, 8)).afterCommit insertApply

theorem catchUp_insert_run :
    SeqRun insertApply (init (fun _ => none) (fun _ => none)) catchUpCalls catchUpState ∧
      Between insertApply (fun _ => none) (events catchUpCalls) catchUpState ∧
      ∀ pre : List (Call Nat (Nat × Nat)), catchUpCalls = pre ++ [.commit] →
        Committed insertApply (fun _ => none) (events catchUpCalls) catchUpState ∧
        ∀ gets : List (Nat × Nat),
          (∃ σ', SeqRun insertApply catchUpState (gets.map fun g => .get g.1 g.2) σ') ∧
          ∀ σ', SeqRun insertApply catchUpState (gets.map fun g => .get g.1 g.2) σ' →
            Committed insertApply (fun _ => none) (events catchUpCalls) σ' ∧
            σ'.replies = catchUpState.replies ++
              gets.map (fun g => (events catchUpCalls).foldl insertApply (fun _ => none) g.2) :=
  have h : SeqRun insertApply (init (fun _ => none) (fun _ => none)) catchUpCalls catchUpState :=
    .cons ((callRuns_addEvent insertApply rfl _).2 rfl) <|
    .cons ((callRuns_commit insertApply rfl).2 ⟨rfl, rfl⟩) <|
    .cons ((callRuns_addEvent insertApply rfl _).2 rfl) <|
    .cons ((callRuns_commit insertApply rfl).2 ⟨rfl, rfl⟩) (.nil _)
  ⟨h, mrsw_seq_catch_up insertApply _ h⟩

/-! ## `current_reader` は `WRITER` の tag の container を指す

`commit` は tag を入れ替えた後で `reader`（いま `WRITER` の tag を付けた方）を `current_reader` に
書く。次の `add_event` はその container に event を適用するので、`commit` していない event が
`get` に見える。
-/

/-- 空の map で `commit` の後に `add_event (1, 7)` を呼ぶと、reader 0 の `get(1)` は `7` を読む。
`commit` の時点の map には key 1 がない。 -/
theorem mrsw_get_reads_uncommitted_event :
    ∃ σ, SeqRun insertApply (init (fun _ => none) (fun _ => none)) [.commit, .addEvent (1, 7), .get 0 1] σ ∧
      σ.currentReader = some .map1 ∧ σ.map1.state = WRITER ∧ σ.replies = [some 7] :=
  ⟨_, .cons ((callRuns_commit insertApply rfl).2 ⟨rfl, rfl⟩) <|
    .cons ((callRuns_addEvent insertApply rfl _).2 rfl) <|
    .cons ((callRuns_get insertApply rfl 1).2 ⟨.map1, rfl, rfl⟩) (.nil _), rfl, rfl, rfl⟩

/-! ## `get` は `reader_count` を戻さない -/

/-- `commit`、`get`、`commit` の後、`map1` の `reader_count` は 2 のままで、次の `commit` は
待つ loop から出ない。 -/
theorem mrsw_commit_hangs_after_get (m : K → Option V) (k : K) :
    ∃ σ, SeqRun apply (init m m) [.commit, .get 0 k, .commit] σ ∧ σ.map1.readerCount = 2 ∧
      ¬ ∃ σ', CallRuns apply σ .commit σ' :=
  ⟨_, .cons ((callRuns_commit apply rfl).2 ⟨rfl, rfl⟩) <|
    .cons ((callRuns_get apply rfl k).2 ⟨.map1, rfl, rfl⟩) <|
    .cons ((callRuns_commit apply rfl).2 ⟨rfl, rfl⟩) (.nil _), rfl,
    fun ⟨_, hc⟩ => absurd ((callRuns_commit apply rfl).1 hc).1 (by decide : ¬ (2 : UInt32) = 0)⟩

end RustCommon.Map.Mrsw
