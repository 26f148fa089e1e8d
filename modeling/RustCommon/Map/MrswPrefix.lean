import RustCommon.Map.MrswRuns

/-!
# MRSW map：container の map と event の列

`MrswRuns.lean` の帳簿 `Inv` は、二つの container の map が `event_stream` を適用すると揃うことを言う。
ここでは `event_stream` の中身まで書く：writer が `add_event` を始めた event の列を `es` とすると、
どの時点でも、どちらの container の map も `es` の先頭のいくつかを順に `m` に適用したものであり、
その container の `event_stream` は `es` の残りの中に続けて並ぶ（`Ledger`）。event は抜けず、重ならず、
順も入れ替わらない（`mrsw_maps_are_prefix_states`）。

`apply_int` は `HashMap` をその場で書き換えるが、ここではそれを writer の一歩とする。だから上のことは、
`apply_int` の途中でない時点についての主張である。`apply_int` の途中の map を読む `get` があることは
`Mrsw.lean` で示した（`mrsw_reader_meets_writer`）ので、`get` の返す値についてはここでは何も言わない。

読む頭の長さは戻りうる。`commit` は `current_reader` を、まだ `event_stream` を適用していない container に
向ける。だから、ある `get` が event `e` を適用した map を読んだ後で、同じ reader の次の `get` が `e` を
適用する前の map を読むことがある（`rereadState_prefix`）。
-/

namespace RustCommon.Map.Mrsw

variable {K V E : Type} (apply : (K → Option V) → E → (K → Option V))

theorem take_succ_of_drop_eq_cons {es rest : List E} {e : E} :
    ∀ {j : Nat}, es.drop j = e :: rest → es.take (j + 1) = es.take j ++ [e] ∧ es.drop (j + 1) = rest := by
  induction es with
  | nil => intro j h; simp at h
  | cons a as ih =>
    intro j h
    cases j with
    | zero => simp only [List.drop_zero, List.cons.injEq] at h; simp [h]
    | succ j => simpa [List.take_succ_cons] using ih h

/-! ## 帳簿 -/

section Ledger

variable (m : K → Option V)

variable (σ : State K V E)

/-- `w` の map は `es` の先頭 `j` 個を `m` に適用したもので、`pre`、`w` の `event_stream`、`post` を
並べると `es` の残りになる。 -/
def Queued (w : Which) (pre post es : List E) : Prop :=
  ∃ j ≤ es.length, (σ.container w).map = (es.take j).foldl apply m ∧
    pre ++ (σ.container w).eventStream ++ post = es.drop j

/-- `w` の map は `es` の先頭のいくつかを順に `m` に適用したもので、`w` の `event_stream` は `es` の残りの
中に続けて並ぶ。 -/
def PrefixState (es : List E) (w : Which) : Prop :=
  ∃ j ≤ es.length, (σ.container w).map = (es.take j).foldl apply m ∧ (σ.container w).eventStream <:+: es.drop j

/-- writer の program counter ごとの、二つの container の map と `event_stream` の中身。
`es` は始めた `add_event` の event。 -/
def Ledger (es : List E) : Prop :=
  match σ.writerPc with
  | .idle | .commit => ∃ w, Tagged σ w ∧ Settled σ w (es.foldl apply m) ∧ Queued apply m σ w.other [] [] es
  | .addEvent e => ∃ es₀ w, es = es₀ ++ [e] ∧ Tagged σ w ∧ Settled σ w (es₀.foldl apply m) ∧
      Queued apply m σ w.other [] [] es₀
  | .addApplying w e => ∃ es₀, es = es₀ ++ [e] ∧ Tagged σ w ∧ Settled σ w (es₀.foldl apply m) ∧
      Queued apply m σ w.other [] [] es₀
  | .addPush r e => Tagged σ r.other ∧ Settled σ r.other (es.foldl apply m) ∧ Queued apply m σ r [] [e] es
  | .commitStoreWriterState w => Tagged σ w ∧ Settled σ w (es.foldl apply m) ∧ Queued apply m σ w.other [] [] es
  | .commitStoreReaderState r =>
    (σ.container r.other).state = READER ∧ Settled σ r.other (es.foldl apply m) ∧ Queued apply m σ r [] [] es
  | .commitStoreCurrent r | .commitWait r | .commitPop r =>
    Tagged σ r ∧ Settled σ r.other (es.foldl apply m) ∧ Queued apply m σ r [] [] es
  | .commitApplying r e => Tagged σ r ∧ Settled σ r.other (es.foldl apply m) ∧ Queued apply m σ r [e] [] es

end Ledger

section Prefix

variable {apply} {m : K → Option V} {σ : State K V E} {es : List E} {w : Which}

/-- 列が伸びても、頭を適用した map とその続きの `event_stream` は、伸びた列の頭とその続きである。 -/
theorem PrefixState.append {es₀ : List E} (h : PrefixState apply m σ es₀ w) (l : List E) :
    PrefixState apply m σ (es₀ ++ l) w :=
  let ⟨j, hj, hm, hs⟩ := h
  ⟨j, Nat.le_trans hj (by simp), by rw [List.take_append_of_le_length hj, hm],
    by rw [List.drop_append_of_le_length hj]; exact hs.trans (List.prefix_append _ _).isInfix⟩

end Prefix

/-! ## 一歩ごとに保たれる -/

section Steps

variable {apply} {m : K → Option V} {es : List E} {σ σ' : State K V E}

/-- settle した container は、列の全部を適用して `event_stream` が空である。 -/
theorem Settled.queued {w : Which} (h : Settled σ w (es.foldl apply m)) : Queued apply m σ w [] [] es :=
  ⟨es.length, Nat.le_refl _, by rw [List.take_length]; exact h.1, by simp [h.2]⟩

/-- reader の一歩は帳簿を変えない。 -/
theorem Ledger.stepReader (h : Ledger apply m σ es) (t : Nat) : Ledger apply m (stepReader t σ) es := by
  unfold Ledger at h ⊢
  rw [stepReader_writerPc]
  cases hpc : σ.writerPc <;> simp only [hpc] at h ⊢ <;>
    simpa only [Tagged, Settled, Queued, stepReader_map, stepReader_eventStream, stepReader_state] using h

/-- 呼び出しを始める動作：`add_event` の event は帳簿の列に入り、ほかは何も変えない。 -/
theorem Ledger.call (h : Ledger apply m σ es) {c : Call K E} (hs : step apply σ (.call c) = some σ') :
    Ledger apply m σ' (es ++ c.event?.toList) := by
  cases c with
  | addEvent e =>
    simp only [step, Option.ite_none_right_eq_some, Option.some.injEq] at hs
    obtain ⟨hi, rfl⟩ := hs
    simp only [Ledger, WriterPc.eq_idle hi] at h
    obtain ⟨w, hq⟩ := h
    exact ⟨es, w, rfl, hq⟩
  | commit =>
    simp only [step, Option.ite_none_right_eq_some, Option.some.injEq] at hs
    obtain ⟨hi, rfl⟩ := hs
    simp only [Ledger, WriterPc.eq_idle hi] at h
    simpa only [Call.event?, Option.toList, List.append_nil] using h
  | get t k =>
    simp only [step, Option.ite_none_right_eq_some, Option.some.injEq] at hs
    obtain ⟨-, rfl⟩ := hs
    simpa only [Call.event?, Option.toList, List.append_nil] using h

/-- writer の一歩は帳簿を保つ。 -/
theorem Ledger.stepWriter (h : Ledger apply m σ es) : Ledger apply m (stepWriter apply σ) es := by
  unfold Ledger at h
  cases hpc : σ.writerPc with
  | idle => simpa only [Mrsw.stepWriter, hpc, Ledger] using h
  | addEvent e =>
    simp only [hpc] at h
    obtain ⟨es₀, w, hes, ht, hs, hq⟩ := h
    simp only [Mrsw.stepWriter, hpc, Ledger, ht.writer]
    exact ⟨es₀, hes, ht, hs, hq⟩
  | addApplying w e =>
    simp only [hpc, Tagged, Settled, Queued] at h
    obtain ⟨es₀, rfl, ⟨hw, hw'⟩, ⟨hmap, hstr⟩, j, hj, hm, hd⟩ := h
    simp only [Mrsw.stepWriter, hpc, Ledger, Tagged, Settled, Queued, Which.other_other, State.container_mk,
      State.container_modify_self, State.container_modify_other]
    refine ⟨⟨hw, hw'⟩, ⟨by rw [hmap, List.foldl_append]; rfl, hstr⟩, j,
      Nat.le_trans hj (by simp), by rw [List.take_append_of_le_length hj, hm], ?_⟩
    rw [List.drop_append_of_le_length hj, ← hd]
    simp
  | addPush r e =>
    simp only [hpc, Tagged, Settled, Queued, Which.other_other] at h
    obtain ⟨⟨hw, hw'⟩, ⟨hmap, hstr⟩, j, hj, hm, hd⟩ := h
    simp only [Mrsw.stepWriter, hpc, Ledger]
    refine ⟨r.other, ?_⟩
    simp only [Tagged, Settled, Queued, Which.other_other, State.container_mk,
      State.container_modify_self, State.container_modify_other]
    exact ⟨⟨hw, hw'⟩, ⟨hmap, hstr⟩, j, hj, hm, by simpa using hd⟩
  | commit =>
    simp only [hpc] at h
    obtain ⟨w, ht, hs, hq⟩ := h
    simp only [Mrsw.stepWriter, hpc, Ledger, ht.writer]
    exact ⟨ht, hs, hq⟩
  | commitStoreWriterState w =>
    simp only [hpc, Tagged, Settled, Queued] at h
    obtain ⟨⟨-, hw'⟩, ⟨hmap, hstr⟩, hq⟩ := h
    simp only [Mrsw.stepWriter, hpc, Ledger, Settled, Queued, Which.other_other,
      State.container_mk, State.container_modify_self, State.container_modify_other]
    exact ⟨trivial, ⟨hmap, hstr⟩, hq⟩
  | commitStoreReaderState r =>
    simp only [hpc, Settled, Queued] at h
    obtain ⟨hr', ⟨hmap, hstr⟩, hq⟩ := h
    simp only [Mrsw.stepWriter, hpc, Ledger, Tagged, Settled, Queued, State.container_mk,
      State.container_modify_self, State.container_modify_other]
    exact ⟨⟨trivial, hr'⟩, ⟨hmap, hstr⟩, hq⟩
  | commitStoreCurrent r =>
    simp only [hpc] at h
    simpa only [Mrsw.stepWriter, hpc, Ledger, Tagged, Settled, Queued, State.container_mk] using h
  | commitWait r =>
    simp only [hpc] at h
    simp only [Mrsw.stepWriter, hpc]
    split
    · exact h
    · simpa only [Ledger, hpc] using h
  | commitPop r =>
    simp only [hpc] at h
    obtain ⟨ht, hs, j, hj, hm, hd⟩ := h
    simp only [Mrsw.stepWriter, hpc]
    split
    next hnil =>
      simp only [hnil, List.nil_append, List.append_nil] at hd
      have hj' : es.length ≤ j := List.drop_eq_nil_iff.1 hd.symm
      simp only [Ledger, Tagged, Settled, Queued, State.container_mk]
      exact ⟨r, ht, ⟨by rw [hm, List.take_of_length_le hj'], hnil⟩, hs.queued⟩
    next e rest hcons =>
      simp only [Ledger, Tagged, Settled, Queued, State.container_mk, State.container_modify_self,
        State.container_modify_other]
      exact ⟨ht, hs, j, hj, hm, by simpa [hcons] using hd⟩
  | commitApplying r e =>
    simp only [hpc] at h
    obtain ⟨ht, hs, j, -, hm, hd⟩ := h
    simp only [List.singleton_append, List.append_nil] at hd
    obtain ⟨htake, hdrop⟩ := take_succ_of_drop_eq_cons hd.symm
    simp only [Mrsw.stepWriter, hpc, Ledger, Tagged, Settled, Queued, State.container_mk,
      State.container_modify_self, State.container_modify_other]
    refine ⟨ht, hs, j + 1, ?_, by rw [htake, List.foldl_append, hm]; rfl, by simpa using hdrop.symm⟩
    have : (es.drop j).length ≠ 0 := by rw [← hd]; simp
    simp only [List.length_drop] at this
    omega

theorem Ledger.step (h : Ledger apply m σ es) {a : Action K E} (hs : Mrsw.step apply σ a = some σ') :
    Ledger apply m σ' (es ++ a.event?.toList) := by
  cases a with
  | call c => exact h.call hs
  | writer =>
    simp only [Mrsw.step, Option.ite_none_left_eq_some, Option.some.injEq] at hs
    obtain ⟨-, rfl⟩ := hs
    simpa only [Action.event?, Option.toList, List.append_nil] using h.stepWriter
  | reader t =>
    simp only [Mrsw.step, Option.ite_none_left_eq_some, Option.some.injEq] at hs
    obtain ⟨-, rfl⟩ := hs
    simpa only [Action.event?, Option.toList, List.append_nil] using h.stepReader t

/-- 帳簿は、reader と writer の一歩がどう入り混じった実行でも保たれる。 -/
theorem Ledger.of_run : ∀ {acts : List (Action K E)} {σ : State K V E} {es : List E}, Ledger apply m σ es →
    RustCommon.run (Mrsw.step apply) σ acts = some σ' → Ledger apply m σ' (es ++ addedEvents acts)
  | [], _, _, h, hr => by cases hr; simpa [addedEvents] using h
  | a :: acts, _, _, h, hr => by
    obtain ⟨σ₁, h₁, hr⟩ := Option.bind_eq_some.1 hr
    simpa [addedEvents_cons] using Ledger.of_run (h.step h₁) hr

end Steps

end RustCommon.Map.Mrsw
