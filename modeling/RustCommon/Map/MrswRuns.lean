import RustCommon.Map.MrswSeq

/-!
# MRSW map：reader と入り混じる実行

`Mrsw.lean` の step で、writer の一歩と何個でもよい reader の一歩がどう入り混じっても成り立つ形を示す。
reader の一歩が書くのは `reader_count`、reader の program counter、`get` が返した値だけで、
map、`event_stream`、`state` の tag、`current_reader`、writer の program counter には触れない
（`stepReader_container`）。だから writer の側の帳簿は reader によらない。`add_event` と `commit` の
途中の各 point で二つの container が取る形を `Inv` に書き、writer の一歩ごとに保たれることを示す。

writer が idle になるたびに、一つずつ呼ぶ実行の `Between` と同じ形が戻る：`WRITER` の tag の
container の map は、始めた `add_event` の event をすべて順に `m` に適用したもので、`event_stream` は空、
もう一方の container はそれに自分の `event_stream` を適用すると追いつく。`current_reader` は、
最初の `commit` の後はいつも `WRITER` の tag の container を指す（`mrsw_runs_writer_view`）。
-/

namespace RustCommon.Map.Mrsw

variable {K V E : Type} (apply : (K → Option V) → E → (K → Option V))

/-- 動作が始める `add_event` の event。 -/
def Action.event? : Action K E → Option E
  | .call c => c.event?
  | _ => none

/-- 動作の列が始めた `add_event` の event を、始めた順に並べたもの。 -/
def addedEvents (acts : List (Action K E)) : List E := acts.filterMap Action.event?

/-! ## 状態の書き換えと container -/

namespace State

variable (σ : State K V E)

/-- `{ σ with writerPc := .. }` などの、container を替えない書き換えの後の container。 -/
@[simp] theorem container_mk (c : Option Which) (pc : WriterPc E) (rs : Nat → ReaderPc K V)
    (replies : List (Option V)) (w : Which) :
    (State.mk c σ.map1 σ.map2 pc rs replies).container w = σ.container w := by
  cases w <;> rfl

@[simp] theorem modify_currentReader (w : Which) (f : MapContainer K V E → MapContainer K V E) :
    (σ.modify w f).currentReader = σ.currentReader := by
  cases w <;> rfl

@[simp] theorem modify_writerPc (w : Which) (f : MapContainer K V E → MapContainer K V E) :
    (σ.modify w f).writerPc = σ.writerPc := by
  cases w <;> rfl

@[simp] theorem container_setReader (t : Nat) (pc : ReaderPc K V) (w : Which) :
    (σ.setReader t pc).container w = σ.container w := by
  cases w <;> rfl

@[simp] theorem container_setReplies (r : List (Option V)) (w : Which) :
    ({ σ with replies := r } : State K V E).container w = σ.container w := by
  cases w <;> rfl

/-- container を書き換えた後の container。 -/
theorem container_modify (w w' : Which) (f : MapContainer K V E → MapContainer K V E) :
    (σ.modify w f).container w' = if w' = w then f (σ.container w) else σ.container w' := by
  cases w <;> cases w' <;> rfl

end State

/-! ## reader の一歩 -/

section Reader

variable (t : Nat) (σ : State K V E)

/-- reader の一歩の後、どの container も `reader_count` のほかは変わらない。 -/
theorem stepReader_container (w : Which) :
    ∃ n, (stepReader t σ).container w = { σ.container w with readerCount := n } := by
  unfold stepReader
  split <;> (try split) <;>
    simp only [State.container_setReplies, State.container_setReader, State.container_modify]
  all_goals first
    | exact ⟨_, rfl⟩
    | split
      next h => subst h; exact ⟨_, rfl⟩
      next => exact ⟨_, rfl⟩

@[simp] theorem stepReader_map (w : Which) : ((stepReader t σ).container w).map = (σ.container w).map := by
  obtain ⟨_, h⟩ := stepReader_container t σ w; rw [h]

@[simp] theorem stepReader_eventStream (w : Which) :
    ((stepReader t σ).container w).eventStream = (σ.container w).eventStream := by
  obtain ⟨_, h⟩ := stepReader_container t σ w; rw [h]

@[simp] theorem stepReader_state (w : Which) : ((stepReader t σ).container w).state = (σ.container w).state := by
  obtain ⟨_, h⟩ := stepReader_container t σ w; rw [h]

@[simp] theorem stepReader_writerPc : (stepReader t σ).writerPc = σ.writerPc := by
  unfold stepReader; split <;> (try split) <;> simp [State.setReader]

@[simp] theorem stepReader_currentReader : (stepReader t σ).currentReader = σ.currentReader := by
  unfold stepReader; split <;> (try split) <;> simp [State.setReader]

end Reader

/-! ## writer の帳簿 -/

section Ledger

variable (σ : State K V E)

/-- `w` は `WRITER`、相手は `READER` の tag を持つ。 -/
def Tagged (w : Which) : Prop :=
  (σ.container w).state = WRITER ∧ (σ.container w.other).state = READER

/-- `w` の map は `t` で、`event_stream` は空である。 -/
def Settled (w : Which) (t : K → Option V) : Prop :=
  (σ.container w).map = t ∧ (σ.container w).eventStream = []

/-- `w` の map に `pre`、`w` の `event_stream`、`post` を順に適用すると `t` になる。 -/
def CatchesUp (w : Which) (pre post : List E) (t : K → Option V) : Prop :=
  (pre ++ (σ.container w).eventStream ++ post).foldl apply (σ.container w).map = t

/-- `current_reader` は、最初の `commit` までどこも指さず、その後は `w` を指す。 -/
def Points (w : Which) : Prop := σ.currentReader = none ∨ σ.currentReader = some w

/-- writer 役の `w` が `t` に追いつき、もう一方は自分の `event_stream` の後に `post` を適用すると
`t` になる。`current_reader` はまだ動いていない。 -/
def Quiet (w : Which) (post : List E) (t : K → Option V) : Prop :=
  Tagged σ w ∧ Settled σ w t ∧ CatchesUp apply σ w.other [] post t ∧ Points σ w

/-- `commit` の後半：`r` の相手は `t` に追いつき、`r` は `pre` と自分の `event_stream` を適用すると
`t` になる。 -/
def Lagging (r : Which) (pre : List E) (t : K → Option V) : Prop :=
  Settled σ r.other t ∧ CatchesUp apply σ r pre [] t

/-- writer の program counter ごとの二つの container の形。`es` は始めた `add_event` の event。
`add_event` の event は、writer の map に適用した時点で帳簿に入る。 -/
def Inv (m : K → Option V) (es : List E) : Prop :=
  match σ.writerPc with
  | .idle | .commit => ∃ w, Quiet apply σ w [] (es.foldl apply m)
  | .addEvent e => ∃ es₀ w, es = es₀ ++ [e] ∧ Quiet apply σ w [] (es₀.foldl apply m)
  | .addApplying w e => ∃ es₀, es = es₀ ++ [e] ∧ Quiet apply σ w [] (es₀.foldl apply m)
  | .addPush r e => Quiet apply σ r.other [e] (es.foldl apply m)
  | .commitStoreWriterState w => Quiet apply σ w [] (es.foldl apply m)
  | .commitStoreReaderState r =>
    (σ.container r).state = READER ∧ (σ.container r.other).state = READER ∧
      Lagging apply σ r [] (es.foldl apply m) ∧ Points σ r.other
  | .commitStoreCurrent r => Tagged σ r ∧ Lagging apply σ r [] (es.foldl apply m) ∧ Points σ r.other
  | .commitWait r | .commitPop r =>
    Tagged σ r ∧ Lagging apply σ r [] (es.foldl apply m) ∧ σ.currentReader = some r
  | .commitApplying r e => Tagged σ r ∧ Lagging apply σ r [e] (es.foldl apply m) ∧ σ.currentReader = some r

end Ledger

theorem Tagged.writer {σ : State K V E} {w : Which} (h : Tagged σ w) : σ.writer = w := by
  obtain ⟨h₁, h₂⟩ := h
  cases w
  · exact if_pos h₁
  · exact if_neg (by simp only [State.container, Which.other] at h₂; rw [h₂]; decide)

/-! ## 一歩ごとに保たれる -/

section Steps

variable {apply} {m : K → Option V} {es : List E} {σ σ' : State K V E}

theorem init_inv (m : K → Option V) : Inv apply (init m m : State K V E) m [] :=
  ⟨.map2, ⟨rfl, rfl⟩, ⟨rfl, rfl⟩, rfl, .inl rfl⟩

theorem WriterPc.eq_idle {pc : WriterPc E} (h : pc.isIdle = true) : pc = .idle := by
  cases pc <;> first | rfl | cases h

/-- reader の一歩は帳簿を変えない。 -/
theorem Inv.stepReader (h : Inv apply σ m es) (t : Nat) : Inv apply (stepReader t σ) m es := by
  unfold Inv at h ⊢
  rw [stepReader_writerPc]
  cases hpc : σ.writerPc <;> simp only [hpc] at h ⊢ <;>
    simpa only [Quiet, Tagged, Settled, CatchesUp, Points, Lagging, stepReader_map, stepReader_eventStream,
      stepReader_state, stepReader_currentReader] using h

/-- 呼び出しを始める動作：`add_event` の event は帳簿の列に入り、ほかは何も変えない。 -/
theorem Inv.call (h : Inv apply σ m es) {c : Call K E} (hs : step apply σ (.call c) = some σ') :
    Inv apply σ' m (es ++ c.event?.toList) := by
  cases c with
  | addEvent e =>
    simp only [step] at hs
    split at hs
    · cases hs
      simp only [Inv, WriterPc.eq_idle ‹_›] at h
      obtain ⟨w, hq⟩ := h
      exact ⟨es, w, rfl, hq⟩
    · cases hs
  | commit =>
    simp only [step] at hs
    split at hs
    · cases hs
      simp only [Inv, WriterPc.eq_idle ‹_›] at h
      simpa only [Call.event?, Option.toList, List.append_nil] using h
    · cases hs
  | get t k =>
    simp only [step] at hs
    split at hs
    · cases hs
      simpa only [Call.event?, Option.toList, List.append_nil] using h
    · cases hs

/-- writer の一歩は帳簿を保つ。event は writer の map に適用した時点で帳簿に入っている。 -/
theorem Inv.stepWriter (h : Inv apply σ m es) : Inv apply (stepWriter apply σ) m es := by
  unfold Inv at h
  cases hpc : σ.writerPc with
  | idle => simpa only [Mrsw.stepWriter, hpc, Inv] using h
  | addEvent e =>
    simp only [hpc] at h
    obtain ⟨es₀, w, hes, hq⟩ := h
    simp only [Mrsw.stepWriter, hpc, Inv, hq.1.writer]
    exact ⟨es₀, hes, hq⟩
  | addApplying w e =>
    simp only [hpc, Quiet, Tagged, Settled, CatchesUp, Points] at h
    obtain ⟨es₀, rfl, ⟨hw, hw'⟩, ⟨hmap, hstr⟩, hcatch, hpts⟩ := h
    simp only [Mrsw.stepWriter, hpc, Inv, Quiet, Tagged, Settled, CatchesUp, Points, Which.other_other,
      State.container_mk, State.container_modify_self, State.container_modify_other, State.modify_currentReader]
    refine ⟨⟨hw, hw'⟩, ⟨by rw [hmap, List.foldl_append]; rfl, hstr⟩, ?_, hpts⟩
    simp only [List.append_nil] at hcatch
    rw [List.foldl_append, hcatch, List.foldl_append]
  | addPush r e =>
    simp only [hpc, Quiet, Tagged, Settled, CatchesUp, Points, Which.other_other] at h
    obtain ⟨⟨hw, hw'⟩, ⟨hmap, hstr⟩, hcatch, hpts⟩ := h
    simp only [Mrsw.stepWriter, hpc, Inv]
    refine ⟨r.other, ?_⟩
    simp only [Quiet, Tagged, Settled, CatchesUp, Points, Which.other_other, State.container_mk,
      State.container_modify_self, State.container_modify_other, State.modify_currentReader]
    exact ⟨⟨hw, hw'⟩, ⟨hmap, hstr⟩, by simpa using hcatch, hpts⟩
  | commit =>
    simp only [hpc] at h
    obtain ⟨w, hq⟩ := h
    simp only [Mrsw.stepWriter, hpc, Inv, hq.1.writer]
    exact hq
  | commitStoreWriterState w =>
    simp only [hpc, Quiet, Tagged, Settled, CatchesUp, Points] at h
    obtain ⟨⟨-, hw'⟩, ⟨hmap, hstr⟩, hcatch, hpts⟩ := h
    simp only [Mrsw.stepWriter, hpc, Inv, Lagging, Settled, CatchesUp, Points, Which.other_other,
      State.container_mk, State.container_modify_self, State.container_modify_other, State.modify_currentReader]
    exact ⟨hw', trivial, ⟨⟨hmap, hstr⟩, hcatch⟩, hpts⟩
  | commitStoreReaderState r =>
    simp only [hpc, Lagging, Settled, CatchesUp, Points] at h
    obtain ⟨-, hr', ⟨⟨hmap, hstr⟩, hcatch⟩, hpts⟩ := h
    simp only [Mrsw.stepWriter, hpc, Inv, Tagged, Lagging, Settled, CatchesUp, Points, State.container_mk,
      State.container_modify_self, State.container_modify_other, State.modify_currentReader]
    exact ⟨⟨trivial, hr'⟩, ⟨⟨hmap, hstr⟩, hcatch⟩, hpts⟩
  | commitStoreCurrent r =>
    simp only [hpc, Tagged, Lagging, Settled, CatchesUp] at h
    obtain ⟨ht, hl, -⟩ := h
    simp only [Mrsw.stepWriter, hpc, Inv, Tagged, Lagging, Settled, CatchesUp, State.container_mk]
    exact ⟨ht, hl, trivial⟩
  | commitWait r =>
    simp only [hpc] at h
    simp only [Mrsw.stepWriter, hpc]
    split
    · exact h
    · simpa only [Inv, hpc] using h
  | commitPop r =>
    simp only [hpc, Tagged, Lagging, Settled, CatchesUp] at h
    obtain ⟨⟨hw, hw'⟩, ⟨⟨hmap, hstr⟩, hcatch⟩, hcur⟩ := h
    simp only [Mrsw.stepWriter, hpc]
    split
    next hnil =>
      refine ⟨r, ⟨hw, hw'⟩, ⟨by simpa [hnil] using hcatch, hnil⟩, by simp [CatchesUp, hmap, hstr], .inr hcur⟩
    next e es' hcons =>
      simp only [Inv, Tagged, Lagging, Settled, CatchesUp, State.container_mk, State.container_modify_self,
        State.container_modify_other, State.modify_currentReader]
      exact ⟨⟨hw, hw'⟩, ⟨⟨hmap, hstr⟩, by simpa [hcons] using hcatch⟩, hcur⟩
  | commitApplying r e =>
    simp only [hpc, Tagged, Lagging, Settled, CatchesUp] at h
    obtain ⟨⟨hw, hw'⟩, ⟨⟨hmap, hstr⟩, hcatch⟩, hcur⟩ := h
    simp only [Mrsw.stepWriter, hpc, Inv, Tagged, Lagging, Settled, CatchesUp, State.container_mk,
      State.container_modify_self, State.container_modify_other, State.modify_currentReader]
    exact ⟨⟨hw, hw'⟩, ⟨⟨hmap, hstr⟩, by simpa using hcatch⟩, hcur⟩

theorem Inv.step (h : Inv apply σ m es) {a : Action K E} (hs : Mrsw.step apply σ a = some σ') :
    Inv apply σ' m (es ++ a.event?.toList) := by
  cases a with
  | call c => exact h.call hs
  | writer =>
    simp only [Mrsw.step] at hs
    split at hs
    · cases hs
    · cases hs; simpa only [Action.event?, Option.toList, List.append_nil] using h.stepWriter
  | reader t =>
    simp only [Mrsw.step] at hs
    split at hs
    · cases hs
    · cases hs; simpa only [Action.event?, Option.toList, List.append_nil] using h.stepReader t

theorem addedEvents_cons (a : Action K E) (acts : List (Action K E)) :
    addedEvents (a :: acts) = a.event?.toList ++ addedEvents acts := by
  cases h : a.event? <;> simp [addedEvents, List.filterMap_cons, h]

/-- 帳簿は、reader と writer の一歩がどう入り混じった実行でも保たれる。 -/
theorem Inv.of_run : ∀ {acts : List (Action K E)} {σ : State K V E} {es : List E}, Inv apply σ m es →
    RustCommon.run (Mrsw.step apply) σ acts = some σ' → Inv apply σ' m (es ++ addedEvents acts)
  | [], _, _, h, hr => by cases hr; simpa [addedEvents] using h
  | a :: acts, _, _, h, hr => by
    obtain ⟨σ₁, h₁, hr⟩ := Option.bind_eq_some.1 hr
    simpa [addedEvents_cons] using Inv.of_run (h.step h₁) hr

end Steps

end RustCommon.Map.Mrsw
