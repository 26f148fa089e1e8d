import Mathlib.Logic.Function.Basic
import Mathlib.Data.Nat.Defs

/-!
# 共通の道具

三つの並行部品（SPSC queue、MPSC queue、MRSW map）は、どれも
「共有 memory と thread ごとの program counter」の状態機械として書く。
一歩は一回の load、store、compare_exchange、または payload の読み書きである。

ここには三つが共有するものを置く。

* `roundToPowerOfTwo` — 容量の丸め。`a19_core` は src にないので spec から作る。
* `Reachable` と `run` — 初期状態から step 関数で辿れる状態と、動作の列の実行。
* `soloRun` — 一つの thread だけを idle に戻るまで進める。
  「一度に一つずつ呼ぶ」逐次実行は、これで fine-grained な step から導く。
  別に逐次版の関数を書くことはしない。
-/

namespace RustCommon

/-! ## 2 冪への丸め -/

/--
Modelled from the spec: `a19_core::pow2::PowOf2::round_to_power_of_two`（src にない）。

spec §8 の「要求された容量以上の最小の 2 冪」。`power` を 1 から倍にしていく。
`n` 回倍にすれば必ず `n` を超えるので、`n` を fuel にする。
-/
def roundToPowerOfTwo (n : Nat) : Nat :=
  go n 1
where
  go : Nat → Nat → Nat
    | 0, power => power
    | fuel + 1, power => if power < n then go fuel (power * 2) else power

theorem roundToPowerOfTwo.go_isPowerOfTwo (n : Nat) :
    ∀ fuel power, power.isPowerOfTwo → (go n fuel power).isPowerOfTwo
  | 0, _, h => h
  | fuel + 1, power, h => by
    unfold go
    split
    · exact go_isPowerOfTwo n fuel _ (Nat.mul2_isPowerOfTwo_of_isPowerOfTwo h)
    · exact h

/-- 丸めた容量は 2 冪である。queue と buffer の容量はこれで決まる。 -/
theorem roundToPowerOfTwo_isPowerOfTwo (n : Nat) : (roundToPowerOfTwo n).isPowerOfTwo :=
  roundToPowerOfTwo.go_isPowerOfTwo n n 1 Nat.one_isPowerOfTwo

example : roundToPowerOfTwo 100 = 128 := by decide

/-! ## mask と剰余 -/

/-- 2 冪の容量なら、`capacity - 1` との bit 積は剰余である。`pos(index) = index & mask` の意味。 -/
theorem and_mask_eq_mod {C : Nat} (h : C.isPowerOfTwo) (x : Nat) : x &&& (C - 1) = x % C := by
  obtain ⟨k, rfl⟩ := h
  exact Nat.and_pow_two_sub_one_eq_mod x k

theorem eq_of_mod_eq_of_lt {C i j : Nat} (hij : i ≤ j) (hlt : j < i + C) (h : i % C = j % C) :
    i = j := by
  have h0 : (j - i) % C = 0 := Nat.sub_mod_eq_zero_of_mod_eq h.symm
  rw [Nat.mod_eq_of_lt (by omega)] at h0
  omega

/--
長さ `C` 以下の窓 `[lo, hi)` の中では、二つの index が剰余 `C` でぶつからない。
ring の slot の持ち主が一つに決まるのはこのためである。
-/
theorem mod_injOn_window {C lo hi i j : Nat} (hw : hi ≤ lo + C) (hi₁ : lo ≤ i) (hi₂ : i < hi)
    (hj₁ : lo ≤ j) (hj₂ : j < hi) (h : i % C = j % C) : i = j := by
  rcases Nat.le_total i j with hij | hji
  · exact eq_of_mod_eq_of_lt hij (by omega) h
  · exact (eq_of_mod_eq_of_lt hji (by omega) h.symm).symm

/-! ## 到達可能な状態 -/

section Reach

variable {σ α : Type} {step : σ → α → Option σ} {init : σ}

/-- `init` から `step` を何回か踏んで着く状態。`step s a = some s'` は、動作 `a` が `s` で起こせて
`s'` に移ることを言う。 -/
inductive Reachable (step : σ → α → Option σ) (init : σ) : σ → Prop
  | init : Reachable step init init
  | step {s s' : σ} (a : α) : Reachable step init s → step s a = some s' → Reachable step init s'

/-- 初期状態で成り立ち、一歩で保たれる性質は、到達可能な状態すべてで成り立つ。 -/
theorem Reachable.induct_inv {P : σ → Prop} (h0 : P init)
    (hstep : ∀ s a s', P s → step s a = some s' → P s') {s : σ} (h : Reachable step init s) :
    P s := by
  induction h with
  | init => exact h0
  | step a _ hs ih => exact hstep _ a _ ih hs

/-- 動作の列を順に踏む。途中で起こせない動作があれば `none`。 -/
def run (step : σ → α → Option σ) : σ → List α → Option σ
  | s, [] => some s
  | s, a :: as => (step s a).bind (fun s' => run step s' as)

/-- `run` を左からの畳み込みで書く。具体的な動作の列を評価するとき、状態を一歩ずつ簡約できる。 -/
theorem run_eq_foldl (s : σ) (as : List α) :
    run step s as = as.foldl (fun o a => o.bind (step · a)) (some s) := by
  have hnone : ∀ l : List α, l.foldl (fun o a => o.bind (step · a)) none = none := by
    intro l; induction l <;> simp_all
  induction as generalizing s with
  | nil => rfl
  | cons a as ih =>
    simp only [run, List.foldl_cons, Option.some_bind]
    cases step s a with
    | none => exact (hnone as).symm
    | some s' => exact ih s'

theorem Reachable.of_run {s s' : σ} (h : Reachable step init s) :
    ∀ {as : List α}, run step s as = some s' → Reachable step init s'
  | [], hr => by cases hr; exact h
  | a :: as, hr => by
    simp only [run, Option.bind_eq_some] at hr
    obtain ⟨s₁, h₁, h₂⟩ := hr
    exact (h.step a h₁).of_run h₂

end Reach

/-! ## 一つの thread だけを走らせる -/

section Solo

variable {σ : Type} {next : σ → σ} {done : σ → Bool}

/-- 一つの thread だけを、`done` になるまで `next` で進める（高々 `fuel` 歩）。
着かなければ `none`。 -/
def soloRun (next : σ → σ) (done : σ → Bool) : Nat → σ → Option σ
  | 0, s => if done s then some s else none
  | fuel + 1, s => if done s then some s else soloRun next done fuel (next s)

/-- `s` から他の thread を動かさずに進めて、有限歩で `done` の `s'` に着く。 -/
def SoloRuns (next : σ → σ) (done : σ → Bool) (s s' : σ) : Prop :=
  ∃ fuel, soloRun next done fuel s = some s'

theorem soloRun_done {s : σ} (h : done s = true) (fuel : Nat) :
    soloRun next done fuel s = some s := by
  cases fuel <;> simp [soloRun, h]

theorem soloRun_eq_done {s s' : σ} : ∀ {fuel}, soloRun next done fuel s = some s' → done s' = true
  | 0, h => by
    simp only [soloRun] at h
    split at h
    · cases h; assumption
    · cases h
  | _ + 1, h => by
    simp only [soloRun] at h
    split at h
    · cases h; assumption
    · exact soloRun_eq_done h

theorem SoloRuns.refl {s : σ} (h : done s = true) : SoloRuns next done s s := ⟨0, soloRun_done h 0⟩

/-- まだ `done` でなければ、一歩進めた状態から走らせたのと同じである。 -/
theorem SoloRuns.of_next {s s' : σ} (h : done s = false) (hr : SoloRuns next done (next s) s') :
    SoloRuns next done s s' := by
  obtain ⟨fuel, hf⟩ := hr
  exact ⟨fuel + 1, by simp [soloRun, h, hf]⟩

theorem SoloRuns.next_of {s s' : σ} (h : done s = false) (hr : SoloRuns next done s s') :
    SoloRuns next done (next s) s' := by
  obtain ⟨fuel, hf⟩ := hr
  cases fuel with
  | zero => simp [soloRun, h] at hf
  | succ fuel => exact ⟨fuel, by simpa [soloRun, h] using hf⟩

/-- 走らせ方は一つしかない。行き着く状態は fuel に依らない。 -/
theorem SoloRuns.unique {s a b : σ} (ha : SoloRuns next done s a) (hb : SoloRuns next done s b) :
    a = b := by
  obtain ⟨n, hn⟩ := ha
  obtain ⟨m, hm⟩ := hb
  induction n generalizing s m with
  | zero =>
    have hd := soloRun_eq_done hn
    simp only [soloRun] at hn
    split at hn
    · cases hn; rw [soloRun_done hd m] at hm; exact Option.some.inj hm
    · cases hn
  | succ n ih =>
    by_cases hd : done s = true
    · rw [soloRun_done hd] at hn hm
      exact (Option.some.inj hn).symm.trans (Option.some.inj hm)
    · have hd' : done s = false := by simpa using hd
      cases m with
      | zero => simp [soloRun, hd'] at hm
      | succ m =>
        simp only [soloRun, hd', Bool.false_eq_true, if_false] at hn hm
        exact ih hn m hm

/-- `done` でない状態が `next` で動かないなら、何歩進めても着かない（終わらない spin）。 -/
theorem soloRun_eq_none_of_fixed {s : σ} (hd : done s = false) (hn : next s = s) :
    ∀ fuel, soloRun next done fuel s = none
  | 0 => by simp [soloRun, hd]
  | fuel + 1 => by simp only [soloRun, hd, hn, Bool.false_eq_true, if_false]; exact soloRun_eq_none_of_fixed hd hn fuel

/-- 保たれる性質 `P` の上で、`done` でない状態の一歩ごとに減る量 `μ` があれば、一人で走らせた thread は
`μ` 歩のうちに `done` に着く。spin しない loop の終わり方である。 -/
theorem soloRun_isSome_of_measure (P : σ → Prop) (μ : σ → Nat)
    (hstep : ∀ s, P s → done s = false → P (next s) ∧ μ (next s) < μ s) :
    ∀ {fuel : Nat} {s : σ}, P s → μ s ≤ fuel → (soloRun next done fuel s).isSome
  | 0, s, hs, hμ => by
    cases hd : done s
    · exact absurd (hstep s hs hd).2 (by omega)
    · simp [soloRun, hd]
  | fuel + 1, s, hs, hμ => by
    cases hd : done s
    · obtain ⟨hs', hlt⟩ := hstep s hs hd
      simp only [soloRun, hd, Bool.false_eq_true, if_false]
      exact soloRun_isSome_of_measure P μ hstep hs' (by omega)
    · simp [soloRun, hd]

/-- `next` で閉じた、`done` でない状態の集まり `P` に入れば、何歩進めても着かない（終わらない spin）。 -/
theorem soloRun_eq_none_of_closed (P : σ → Prop) (hP : ∀ s, P s → done s = false ∧ P (next s)) :
    ∀ (fuel : Nat) {s : σ}, P s → soloRun next done fuel s = none
  | 0, s, hs => by simp [soloRun, (hP s hs).1]
  | fuel + 1, s, hs => by
    simp only [soloRun, (hP s hs).1, Bool.false_eq_true, if_false]
    exact soloRun_eq_none_of_closed P hP fuel (hP s hs).2

/-- `done` でない状態で動作 `a` がいつも `next` の一歩なら、到達可能な状態から一人で走って着く状態も
到達可能である。 -/
theorem Reachable.of_soloRuns {α : Type} {step : σ → α → Option σ} {init s s' : σ} {a : α}
    (hstep : ∀ s, done s = false → step s a = some (next s)) (h : Reachable step init s)
    (hr : SoloRuns next done s s') : Reachable step init s' := by
  obtain ⟨n, hn⟩ := hr
  induction n generalizing s with
  | zero =>
    simp only [soloRun] at hn
    split at hn
    · cases hn; exact h
    · cases hn
  | succ n ih =>
    cases hd : done s
    · simp only [soloRun, hd, Bool.false_eq_true, if_false] at hn
      exact ih (h.step a (hstep s hd)) hn
    · rw [soloRun_done hd] at hn; cases hn; exact h

end Solo

/-! ## 呼び出しを一つずつ走らせる

呼び出しと呼び出しの間はどの thread も idle で、一つの呼び出しは、それを呼んだ thread だけを idle に戻るまで
進める。SPSC と MPSC の queue、MRSW map の逐次実行はどれもこの形なので、ここで一度だけ書く。
-/

section Seq

variable {σ α γ : Type}

/-- 呼び出し `c` を始める動作 `start c` が起こせて、呼んだ thread（一歩が `(thread c).1`、idle の判定が
`(thread c).2`）だけを idle に戻るまで進めると `s'` に着く。 -/
def CallRuns (step : σ → α → Option σ) (start : γ → α) (thread : γ → (σ → σ) × (σ → Bool))
    (s : σ) (c : γ) (s' : σ) : Prop :=
  ∃ s₁, step s (start c) = some s₁ ∧ SoloRuns (thread c).1 (thread c).2 s₁ s'

/-- 一つの呼び出しの走り方は一つしかない。 -/
theorem CallRuns.unique {step : σ → α → Option σ} {start : γ → α} {thread : γ → (σ → σ) × (σ → Bool)}
    {s s₁ s₂ : σ} {c : γ} (h₁ : CallRuns step start thread s c s₁) (h₂ : CallRuns step start thread s c s₂) :
    s₁ = s₂ := by
  obtain ⟨a, ha, ra⟩ := h₁
  obtain ⟨b, hb, rb⟩ := h₂
  obtain rfl : a = b := Option.some.inj (ha.symm.trans hb)
  exact ra.unique rb

/-- 呼び出しの列を、一つずつ最後まで走らせる。`callRuns s c s'` は、呼び出し `c` が `s` から走り切って
`s'` に着くこと。 -/
inductive SeqRun (callRuns : σ → γ → σ → Prop) : σ → List γ → σ → Prop
  | nil (s : σ) : SeqRun callRuns s [] s
  | cons {s s₁ s₂ : σ} {c : γ} {cs : List γ} :
      callRuns s c s₁ → SeqRun callRuns s₁ cs s₂ → SeqRun callRuns s (c :: cs) s₂

variable {callRuns : σ → γ → σ → Prop}

/-- 列をつないだ実行は、前半の実行と後半の実行に分かれる。 -/
theorem SeqRun.append {s s' : σ} {xs ys : List γ} (h : SeqRun callRuns s (xs ++ ys) s') :
    ∃ s₁, SeqRun callRuns s xs s₁ ∧ SeqRun callRuns s₁ ys s' := by
  induction xs generalizing s with
  | nil => exact ⟨s, .nil s, h⟩
  | cons c cs ih =>
    cases h with
    | cons hc hr =>
      obtain ⟨s₁, h₁, h₂⟩ := ih hr
      exact ⟨s₁, .cons hc h₁, h₂⟩

/-- 呼び出し一つの走り方が一つなら、列の走り方も一つである。 -/
theorem SeqRun.unique (hu : ∀ s c s₁ s₂, callRuns s c s₁ → callRuns s c s₂ → s₁ = s₂) {s s₁ s₂ : σ}
    {cs : List γ} (h₁ : SeqRun callRuns s cs s₁) (h₂ : SeqRun callRuns s cs s₂) : s₁ = s₂ := by
  induction h₁ generalizing s₂ with
  | nil => cases h₂; rfl
  | cons hc _ ih =>
    cases h₂ with
    | cons hc' hr' => exact ih (hu _ _ _ _ hc hc' ▸ hr')

/--
逐次実行の精緻化。関係 `R` で抽象の状態 `a` と結ばれた状態からは、どの呼び出し `c` も走り切って、抽象の一歩
`f a c` と結ばれた状態に着くとする。走り方が一つなら、どの呼び出しの列も走り切り、行き着く状態は一つで、
抽象の側で同じ列を畳み込んだ状態と `R` で結ばれる。
-/
theorem SeqRun.refines {A : Type} (R : σ → A → Prop) (f : A → γ → A)
    (hsim : ∀ s a c, R s a → ∃ s', callRuns s c s' ∧ R s' (f a c))
    (hu : ∀ s c s₁ s₂, callRuns s c s₁ → callRuns s c s₂ → s₁ = s₂) {s : σ} {a : A} (h : R s a)
    (cs : List γ) :
    ∃ s', SeqRun callRuns s cs s' ∧ (∀ s'', SeqRun callRuns s cs s'' → s'' = s') ∧ R s' (cs.foldl f a) := by
  suffices hex : ∃ s', SeqRun callRuns s cs s' ∧ R s' (cs.foldl f a) by
    obtain ⟨s', hr, hR⟩ := hex
    exact ⟨s', hr, fun _ h' => SeqRun.unique hu h' hr, hR⟩
  induction cs generalizing s a with
  | nil => exact ⟨s, .nil s, h⟩
  | cons c cs ih =>
    obtain ⟨s₁, h₁, hR₁⟩ := hsim s a c h
    obtain ⟨s₂, h₂, hR₂⟩ := ih hR₁
    exact ⟨s₂, .cons h₁ h₂, hR₂⟩

end Seq

end RustCommon
