import RustCommon.Queue.Spsc
import Mathlib.Tactic.CasesM

/-!
# SPSC queue：どの interleaving でも payload は claim した値のまま、一度だけ順に取られる

producer と consumer の step をどう混ぜても、次が成り立つ（`spsc_takes_claimed_payloads`）。

* consumer が index `k` の slot から取り出す payload は、index `k` を claim した `offer` の値である。
  取り出しは index `1, 2, …` の順で、同じ index を二度取ることはない。
* `peek` が返す payload も、その index を claim した値である。
* producer が payload を書く slot には、取られていない payload が残っていない（上書きしない）。
* `drain` の `panic!("Found a None!")` には届かない。

## 不変量の形

`drain` は cursor を先に進めてから slot を一つずつ取るので、`sequence_number` そのものは
「次に取る index」ではない。program counter から次に取る index `next` を読み出し、
stamp を消している途中の index があればそれを窓の先頭 `lo` にする。
窓 `[lo, producer)` の各 index の slot の中身は、両 thread の program counter と履歴 `claimed` で
決まる（`State.expected`）。この配置を `Slots` で言い、両 thread の program counter が覚えている値の
正しさを `ProducerOk` と `ConsumerOk` で言う。

鍵は producer の `id == 0` の検査である。窓がいっぱい（`producer = lo + capacity`）なら、
次に書く slot は窓の先頭の slot で、その stamp は 0 でない。だから検査を通った producer は
窓を `capacity` より長くしない。
-/

namespace RustCommon.Queue.Spsc

variable {T : Type}

/-! ## 窓 -/

/-- consumer が次に取る index。`drain` の途中では cursor より手前にある。 -/
def ConsumerPc.next (seq : Nat) : ConsumerPc T → Nat
  | .pollTake s => s
  | .pollClear s _ => s + 1
  | .drainLoadId s _ i => s + i
  | .drainTake s _ i => s + i
  | .drainClear s _ i _ => s + i + 1
  | _ => seq

/-- payload を取り出したが、stamp をまだ 0 に戻していない index。 -/
def ConsumerPc.clearing : ConsumerPc T → Option Nat
  | .pollClear s _ => some s
  | .drainClear s _ i _ => some (s + i)
  | _ => none

/-- claim したが payload をまだ書いていない index。 -/
def ProducerPc.unwritten : ProducerPc T → Option Nat
  | .writeValue _ p => some p
  | _ => none

/-- claim したが stamp をまだ書いていない index。 -/
def ProducerPc.unstamped : ProducerPc T → Option Nat
  | .writeValue _ p => some p
  | .storeId _ p => some p
  | _ => none

theorem ProducerPc.unwritten_eq_some {pc : ProducerPc T} {p : Nat} (h : pc.unwritten = some p) :
    pc.unstamped = some p := by
  cases pc <;> simp_all [unwritten, unstamped]

namespace State

/-- 次に取る index。 -/
def next (σ : State T) : Nat := σ.consumerPc.next σ.queue.sequenceNumber

/-- 窓の先頭：stamp を消している途中の index があればそれ、なければ `next`。 -/
def lo (σ : State T) : Nat := σ.consumerPc.clearing.getD σ.next

/-- 窓の中の index `i` の slot にあるべき node。 -/
def expected (σ : State T) (i : Nat) : Node T :=
  if σ.consumerPc.clearing = some i then ⟨i, none⟩
  else ⟨if σ.producerPc.unstamped = some i then 0 else i,
        if σ.producerPc.unwritten = some i then none else σ.claimed[i - 1]?⟩

end State

/-- 取り出しの履歴のあるべき形：index `1, 2, …, n` を順に一度ずつ、claim した値で。 -/
def takenSpec (claimed : List T) (n : Nat) : List (Nat × Option T) :=
  (List.range n).map fun k => (k + 1, claimed[k]?)

theorem takenSpec_succ (claimed : List T) (n : Nat) :
    takenSpec claimed (n + 1) = takenSpec claimed n ++ [(n + 1, claimed[n]?)] := by
  simp [takenSpec, List.range_succ]

theorem takenSpec_append (claimed l : List T) {n : Nat} (h : n ≤ claimed.length) :
    takenSpec (claimed ++ l) n = takenSpec claimed n := by
  simp only [takenSpec]
  refine List.map_congr_left fun k hk => ?_
  rw [List.getElem?_append_left (by simp at hk; omega)]

/-! ## thread が覚えている値 -/

/-- producer の program counter が覚えている値と、cursor、窓の先頭、履歴との関係。 -/
def ProducerOk (prod lo cap : Nat) (claimed : List T) : ProducerPc T → Prop
  | .idle | .loadProducer _ => True
  | .loadConsumer _ p | .loadId _ p => p = prod
  | .storeProducer _ p => p = prod ∧ p < lo + cap
  | .writeValue v p | .storeId v p => p + 1 = prod ∧ claimed[p - 1]? = some v

/-- consumer の program counter が覚えている値と、cursor、producer が stamp していない index との関係。 -/
def ConsumerOk (seq prod : Nat) (unstamped : Option Nat) : ConsumerPc T → Prop
  | .idle | .pollLoadSeq | .drainLoadProducer _ | .peekLoadSeq => True
  | .pollLoadProducer s | .peekLoadProducer s => s = seq
  | .pollLoadId s | .peekLoadId s => s = seq ∧ s < prod
  | .pollStoreSeq s | .peekRead s => s = seq ∧ s < prod ∧ unstamped ≠ some s
  | .pollTake s => seq = s + 1 ∧ s < prod ∧ unstamped ≠ some s
  | .pollClear s _ => seq = s + 1 ∧ s < prod
  | .drainLoadSeq _ p => seq ≤ p ∧ p ≤ prod
  | .drainStoreSeq s r => s = seq ∧ s + r ≤ prod
  | .drainLoadId s r i => seq = s + r ∧ i < r ∧ s + r ≤ prod
  | .drainTake s r i => seq = s + r ∧ i < r ∧ s + r ≤ prod ∧ unstamped ≠ some (s + i)
  | .drainClear s r i v => seq = s + r ∧ i < r ∧ s + r ≤ prod ∧ v.isSome
  | .panicked => False

theorem ProducerOk.mono_lo {prod lo lo' cap : Nat} {claimed : List T} {pc : ProducerPc T}
    (h : ProducerOk prod lo cap claimed pc) (hlo : lo ≤ lo') : ProducerOk prod lo' cap claimed pc := by
  cases pc with
  | storeProducer _ p => exact ⟨h.1, by have := h.2; omega⟩
  | _ => exact h

/-- producer の一歩は consumer の覚えている値を壊さない：cursor は進むだけで、
新しく stamp 待ちになる index は consumer が見ている index より後ろにある。 -/
theorem ConsumerOk.mono {seq prod prod' : Nat} {us us' : Option Nat} {c : ConsumerPc T}
    (h : ConsumerOk seq prod us c) (hp : prod ≤ prod')
    (hus : ∀ s, s < prod → us' = some s → us = some s) : ConsumerOk seq prod' us' c := by
  have hne : ∀ s, s < prod → us ≠ some s → us' ≠ some s := fun s hs h₁ h₂ => h₁ (hus s hs h₂)
  cases c <;> simp only [ConsumerOk] at h ⊢ <;> (try casesm* _ ∧ _) <;> (repeat' constructor) <;>
    first | omega | assumption | exact hne _ (by omega) (by assumption)

/-- 次に取る index は cursor を越えない。 -/
theorem ConsumerOk.next_le {seq prod : Nat} {us : Option Nat} {c : ConsumerPc T}
    (h : ConsumerOk seq prod us c) : c.next seq ≤ seq := by
  cases c <;> simp only [ConsumerOk, ConsumerPc.next] at h ⊢ <;> omega

/-- stamp を消している途中の index の次が、次に取る index である。 -/
theorem ConsumerPc.next_of_clearing {k : Nat} {c : ConsumerPc T} (h : c.clearing = some k) (seq : Nat) :
    c.next seq = k + 1 := by
  cases c <;> simp_all [clearing, next]

/-! ## 不変量 -/

/-- 到達可能な状態で成り立つこと。 -/
structure Inv (σ : State T) : Prop where
  pow2 : σ.queue.capacity.isPowerOfTwo
  mask : σ.queue.mask = σ.queue.capacity - 1
  claimed_length : σ.queue.producer = σ.claimed.length + 1
  one_le : 1 ≤ σ.lo
  seq_le : σ.queue.sequenceNumber ≤ σ.queue.producer
  unstamped_next : ∀ p, σ.producerPc.unstamped = some p → σ.next ≤ p
  taken : σ.taken = takenSpec σ.claimed (σ.next - 1)
  peeked : ∀ e ∈ σ.peeked, 1 ≤ e.1 ∧ e.1 < σ.queue.producer ∧ e.2 = σ.claimed[e.1 - 1]?
  slots : Slots σ.queue.ringBuffer σ.queue.capacity σ.lo σ.queue.producer σ.expected
  producer : ProducerOk σ.queue.producer σ.lo σ.queue.capacity σ.claimed σ.producerPc
  consumer : ConsumerOk σ.queue.sequenceNumber σ.queue.producer σ.producerPc.unstamped σ.consumerPc

variable {σ : State T}

theorem Inv.pos_eq (h : Inv σ) (i : Nat) : σ.queue.pos i = i % σ.queue.capacity := by
  rw [RingQueue.pos, h.mask, and_mask_eq_mod h.pow2]

theorem Inv.next_le_seq (h : Inv σ) : σ.next ≤ σ.queue.sequenceNumber := h.consumer.next_le

theorem State.lo_le_next (σ : State T) : σ.lo ≤ σ.next := by
  unfold State.lo
  cases hc : σ.consumerPc.clearing with
  | none => exact Nat.le_refl _
  | some k => simp [State.next, ConsumerPc.next_of_clearing hc]

/-- 窓の中の index の slot を読むと、あるべき node が出てくる。 -/
theorem Inv.read (h : Inv σ) {i : Nat} (h₁ : σ.lo ≤ i) (h₂ : i < σ.queue.producer) :
    σ.queue.ringBuffer (σ.queue.pos i) = σ.expected i := by
  rw [h.pos_eq]; exact h.slots.live i h₁ h₂

/-- stamp 済みで、stamp を消している途中でもない index の slot には、claim した値がある。 -/
theorem State.expected_stamped {i : Nat} (hc : σ.consumerPc.clearing ≠ some i)
    (hs : σ.producerPc.unstamped ≠ some i) : σ.expected i = ⟨i, σ.claimed[i - 1]?⟩ := by
  have hw : σ.producerPc.unwritten ≠ some i := fun he => hs (ProducerPc.unwritten_eq_some he)
  simp [State.expected, hc, hs, hw]

theorem init_inv (queueSize : Nat) : Inv (init queueSize : State T) where
  pow2 := roundToPowerOfTwo_isPowerOfTwo queueSize
  mask := rfl
  claimed_length := rfl
  one_le := Nat.le_refl 1
  seq_le := Nat.le_refl 1
  unstamped_next := by simp [init, ProducerPc.unstamped]
  taken := rfl
  peeked := by simp [init]
  slots := Slots.congr (ringAt_new queueSize).holds fun i h₁ h₂ => by
    simp [init, RingQueue.new, State.lo, State.next, ConsumerPc.next, ConsumerPc.clearing] at h₁ h₂; omega
  producer := trivial
  consumer := trivial

theorem State.next_eq {c : ConsumerPc T} (hpc : σ.consumerPc = c) :
    σ.next = c.next σ.queue.sequenceNumber := by
  rw [State.next, hpc]

theorem Inv.one_le_next (h : Inv σ) : 1 ≤ σ.next := Nat.le_trans h.one_le σ.lo_le_next

/-- producer が stamp を待たせている index は、consumer が stamp を消している index ではない。 -/
theorem Inv.not_clearing_unstamped (h : Inv σ) {p : Nat} (hp : σ.producerPc.unstamped = some p) :
    σ.consumerPc.clearing ≠ some p := fun he => by
  have := h.unstamped_next p hp
  have := ConsumerPc.next_of_clearing he σ.queue.sequenceNumber
  simp only [State.next] at *; omega

/-! ## producer の一歩 -/

theorem ProducerPc.unwritten_eq_none {pc : ProducerPc T} (h : pc.unstamped = none) :
    pc.unwritten = none := by
  cases pc <;> simp_all [unwritten, unstamped]

/-- producer の program counter（と返り値）だけが変わる一歩。claim の前の load と、`false` を返す一歩。 -/
theorem Inv.setProducerPc (h : Inv σ) {pc : ProducerPc T} (rs : List (Reply T))
    (h₁ : σ.producerPc.unstamped = none) (h₂ : pc.unstamped = none)
    (hok : ProducerOk σ.queue.producer σ.lo σ.queue.capacity σ.claimed pc) :
    Inv { σ with producerPc := pc, replies := rs } :=
  { h with
    unstamped_next := by simp [h₂]
    slots := h.slots.congr fun i _ _ => by
      simp [State.expected, h₁, h₂, ProducerPc.unwritten_eq_none h₁, ProducerPc.unwritten_eq_none h₂]
    producer := hok
    consumer := by simpa [h₁, h₂] using h.consumer }

/--
**窓は `capacity` を超えない。**

窓がいっぱい（`producer = lo + capacity`）なら、producer が次に書く slot は窓の先頭 `lo` の slot で、
その stamp は `lo ≥ 1` である。だから `id == 0` を見た producer の index は窓に収まる。
-/
theorem Inv.room (h : Inv σ) {v : T} {p : Nat} (hpc : σ.producerPc = .loadId v p)
    (hid : (σ.queue.ringBuffer (σ.queue.pos p)).id = 0) : p < σ.lo + σ.queue.capacity := by
  have hp : p = σ.queue.producer := by have := h.producer; rwa [hpc] at this
  have hw := h.slots.window
  have hC := Nat.pos_of_isPowerOfTwo h.pow2
  have h1 := h.one_le
  refine Nat.lt_of_not_le fun hge => ?_
  have hpos : σ.queue.pos p = σ.queue.pos σ.lo := by
    rw [h.pos_eq, h.pos_eq, show p = σ.lo + σ.queue.capacity by omega, Nat.add_mod_right]
  rw [hpos, h.read (Nat.le_refl _) (by omega)] at hid
  simp only [State.expected, hpc, ProducerPc.unstamped] at hid
  split at hid <;> simp at hid <;> omega

/-- claim：`producer` に `p + 1` を書く。窓が一つ伸び、新しい index の slot は空のままである。 -/
theorem Inv.claim (h : Inv σ) {v : T} {p : Nat} (hpc : σ.producerPc = .storeProducer v p) :
    Inv { σ with queue := { σ.queue with producer := p + 1 }, producerPc := .writeValue v p,
                 claimed := σ.claimed ++ [v] } := by
  obtain ⟨rfl, hroom⟩ : p = σ.queue.producer ∧ p < σ.lo + σ.queue.capacity := by
    have := h.producer; rwa [hpc] at this
  have hnext := h.next_le_seq
  have hseq := h.seq_le
  have hlen := h.claimed_length
  have hlo := σ.lo_le_next
  have hclr : ∀ k, σ.consumerPc.clearing = some k → k < σ.queue.producer := fun k hk => by
    have := ConsumerPc.next_of_clearing hk σ.queue.sequenceNumber
    simp only [State.next] at hnext; omega
  refine { h with
    claimed_length := by simp; omega
    seq_le := by simp; omega
    unstamped_next := by simp [ProducerPc.unstamped]; simp only [State.next] at hnext ⊢; omega
    taken := by simp only [h.taken]; exact (takenSpec_append _ _ (by simp only [State.next] at hnext ⊢; omega)).symm
    peeked := fun e he => by
      obtain ⟨h1, h2, h3⟩ := h.peeked e he
      refine ⟨h1, by simp; omega, ?_⟩
      simp only [h3]
      rw [List.getElem?_append_left (by omega)]
    slots := h.slots.grow hroom ?_ ?_
    producer := ⟨rfl, by rw [hlen]; simp⟩
    consumer := h.consumer.mono (by simp) fun s hs he => by
      simp [ProducerPc.unstamped] at he; omega }
  · have hc : σ.consumerPc.clearing ≠ some σ.queue.producer := fun he => by
      have := hclr _ he; omega
    simp [State.expected, ProducerPc.unstamped, ProducerPc.unwritten, hc]
  · intro i h1 h2
    have hi : σ.queue.producer ≠ i := by omega
    have hget : (σ.claimed ++ [v])[i - 1]? = σ.claimed[i - 1]? :=
      List.getElem?_append_left (by have := h.one_le; omega)
    simp [State.expected, ProducerPc.unstamped, ProducerPc.unwritten, hpc, hi, hget]

/-- producer が payload を書こうとしている slot は空である。前の周回の payload はもう取り出されている。 -/
theorem Inv.write_slot (h : Inv σ) {v : T} {p : Nat} (hpc : σ.producerPc = .writeValue v p) :
    σ.queue.ringBuffer (σ.queue.pos p) = ⟨0, none⟩ := by
  have hp : p + 1 = σ.queue.producer := by have := h.producer; rw [hpc] at this; exact this.1
  have hnp : σ.next ≤ p := h.unstamped_next p (by rw [hpc]; rfl)
  have hc := h.not_clearing_unstamped (p := p) (by rw [hpc]; rfl)
  have hlo := σ.lo_le_next
  rw [h.read (by omega) (by omega)]
  simp [State.expected, hpc, hc, ProducerPc.unstamped, ProducerPc.unwritten]

/-- payload を書く。claim した index の slot は空で、そこに claim した値が入る。 -/
theorem Inv.write (h : Inv σ) {v : T} {p : Nat} (hpc : σ.producerPc = .writeValue v p) :
    Inv { σ with queue := σ.queue.setValue (σ.queue.pos p) (some v), producerPc := .storeId v p } := by
  obtain ⟨hp, hv⟩ : p + 1 = σ.queue.producer ∧ σ.claimed[p - 1]? = some v := by
    have := h.producer; rwa [hpc] at this
  have hnp : σ.next ≤ p := h.unstamped_next p (by rw [hpc]; rfl)
  have hc := h.not_clearing_unstamped (p := p) (by rw [hpc]; rfl)
  have hlo := σ.lo_le_next
  refine { h with
    unstamped_next := fun q hq => by
      simp only [ProducerPc.unstamped, Option.some.injEq] at hq; subst hq; exact hnp
    slots := h.slots.update (show σ.lo ≤ p by omega) (by omega) (fun j hj => ?_) ?_
      fun i _ _ hi => ?_
    producer := ⟨hp, hv⟩
    consumer := by simpa [hpc, ProducerPc.unstamped] using h.consumer }
  · simp [RingQueue.setValue_ringBuffer, h.pos_eq, hj]
  · rw [RingQueue.setValue_ringBuffer, if_pos (h.pos_eq p).symm, h.write_slot hpc]
    simp [State.expected, hc, ProducerPc.unstamped, ProducerPc.unwritten, hv]
  · simp [State.expected, hpc, ProducerPc.unstamped, ProducerPc.unwritten, Ne.symm hi]

/-- stamp を書く。slot が claim した値と index を持つようになり、stamp 待ちの index はなくなる。 -/
theorem Inv.stamp (h : Inv σ) {v : T} {p : Nat} (hpc : σ.producerPc = .storeId v p)
    (rs : List (Reply T)) :
    Inv { σ with queue := σ.queue.setId (σ.queue.pos p) p, producerPc := .idle, replies := rs } := by
  obtain ⟨hp, hv⟩ : p + 1 = σ.queue.producer ∧ σ.claimed[p - 1]? = some v := by
    have := h.producer; rwa [hpc] at this
  have hnp : σ.next ≤ p := h.unstamped_next p (by rw [hpc]; rfl)
  have hc := h.not_clearing_unstamped (p := p) (by rw [hpc]; rfl)
  have hlo := σ.lo_le_next
  refine { h with
    unstamped_next := by simp [ProducerPc.unstamped]
    slots := h.slots.update (show σ.lo ≤ p by omega) (by omega) (fun j hj => ?_) ?_
      fun i _ _ hi => ?_
    producer := trivial
    consumer := h.consumer.mono (Nat.le_refl _) fun s _ he => by simp [ProducerPc.unstamped] at he }
  · simp [RingQueue.setId_ringBuffer, h.pos_eq, hj]
  · rw [RingQueue.setId_ringBuffer, if_pos (h.pos_eq p).symm, h.read (by omega) (by omega)]
    simp [State.expected, hpc, hc, ProducerPc.unstamped, ProducerPc.unwritten, hv]
  · simp [State.expected, hpc, ProducerPc.unstamped, ProducerPc.unwritten, Ne.symm hi]

/-- producer の一歩は不変量を保つ。 -/
theorem Inv.producer_step (h : Inv σ) : Inv (stepProducer σ) := by
  have hok := h.producer
  cases hpc : σ.producerPc with
  | idle => simpa [stepProducer, hpc] using h
  | loadProducer v =>
    simp only [stepProducer, hpc]
    exact h.setProducerPc σ.replies (by rw [hpc]; rfl) rfl rfl
  | loadConsumer v p =>
    rw [hpc] at hok
    simp only [stepProducer, hpc]
    split
    · exact h.setProducerPc σ.replies (by rw [hpc]; rfl) rfl hok
    · exact h.setProducerPc _ (by rw [hpc]; rfl) rfl trivial
  | loadId v p =>
    rw [hpc] at hok
    simp only [stepProducer, hpc]
    split
    · exact h.setProducerPc σ.replies (by rw [hpc]; rfl) rfl ⟨hok, h.room hpc ‹_›⟩
    · exact h.setProducerPc σ.replies (by rw [hpc]; rfl) rfl trivial
  | storeProducer v p => simpa only [stepProducer, hpc] using h.claim hpc
  | writeValue v p => simpa only [stepProducer, hpc] using h.write hpc
  | storeId v p => simpa only [stepProducer, hpc] using h.stamp hpc _

/-! ## consumer の一歩

consumer の一歩の前の program counter を `c₀`、後を `c` と書く。
-/

theorem takenSpec_pred (claimed : List T) {x : Nat} (h : 1 ≤ x) :
    takenSpec claimed (x - 1) ++ [(x, claimed[x - 1]?)] = takenSpec claimed x := by
  obtain ⟨y, rfl⟩ : ∃ y, x = y + 1 := ⟨x - 1, by omega⟩
  simp [takenSpec_succ]

/-- consumer の program counter と cursor だけが変わる一歩。load、cursor の store、
値を返して idle に戻る一歩がこれにあたる。次に取る index は変わらない。 -/
theorem Inv.setConsumer (h : Inv σ) {c₀ c : ConsumerPc T} (hpc : σ.consumerPc = c₀)
    (h₁ : c₀.clearing = none) (seq : Nat) (rs : List (Reply T)) (h₂ : c.clearing = none)
    (hseq : seq ≤ σ.queue.producer) (hnext : c.next seq = c₀.next σ.queue.sequenceNumber)
    (hok : ConsumerOk seq σ.queue.producer σ.producerPc.unstamped c) :
    Inv { σ with queue := { σ.queue with sequenceNumber := seq }, consumerPc := c, replies := rs } := by
  subst hpc
  have hlo : σ.lo = σ.next := by simp [State.lo, h₁]
  refine { h with
    one_le := by simpa only [State.lo, h₂, Option.getD_none, State.next, hnext] using
        (hlo ▸ h.one_le : 1 ≤ σ.next)
    seq_le := hseq
    unstamped_next := fun p hp => by simpa only [State.next, hnext] using h.unstamped_next p hp
    taken := by simpa only [State.next, hnext] using h.taken
    slots := by
      simp only [State.lo, h₂, Option.getD_none, State.next, hnext]
      exact (hlo ▸ h.slots).congr fun i _ _ => by simp [State.expected, h₁, h₂]
    producer := by
      simpa only [State.lo, h₂, Option.getD_none, State.next, hnext] using
        (hlo ▸ h.producer : ProducerOk _ σ.next _ _ _)
    consumer := hok }

/-- cursor を書かない `Inv.setConsumer`。 -/
theorem Inv.setConsumerPc (h : Inv σ) {c₀ c : ConsumerPc T} (hpc : σ.consumerPc = c₀)
    (rs : List (Reply T)) (h₁ : c₀.clearing = none) (h₂ : c.clearing = none)
    (hnext : c.next σ.queue.sequenceNumber = c₀.next σ.queue.sequenceNumber)
    (hok : ConsumerOk σ.queue.sequenceNumber σ.queue.producer σ.producerPc.unstamped c) :
    Inv { σ with consumerPc := c, replies := rs } :=
  h.setConsumer hpc h₁ _ rs h₂ h.seq_le hnext hok

/-- 次に取る index の slot の stamp がその index なら、producer はそこを stamp し終えている。 -/
theorem Inv.stamped_of_id (h : Inv σ) {c₀ : ConsumerPc T} {x : Nat} (hpc : σ.consumerPc = c₀)
    (h₁ : c₀.clearing = none) (hx : c₀.next σ.queue.sequenceNumber = x)
    (hxp : x < σ.queue.producer) (hid : (σ.queue.ringBuffer (σ.queue.pos x)).id = x) :
    σ.producerPc.unstamped ≠ some x := by
  have hlo : σ.lo = x := by simp [State.lo, hpc, h₁, State.next_eq hpc, hx]
  have h1 := h.one_le
  intro hs
  rw [h.read (by omega) hxp] at hid
  simp [State.expected, hpc, h₁, hs] at hid
  omega

/-- 次に取る index の、stamp 済みの slot には claim した値がある。 -/
theorem Inv.read_next (h : Inv σ) {c₀ : ConsumerPc T} {x : Nat} (hpc : σ.consumerPc = c₀)
    (h₁ : c₀.clearing = none) (hx : c₀.next σ.queue.sequenceNumber = x)
    (hxs : σ.producerPc.unstamped ≠ some x) (hxp : x < σ.queue.producer) :
    σ.queue.ringBuffer (σ.queue.pos x) = ⟨x, σ.claimed[x - 1]?⟩ := by
  have hlo : σ.lo = x := by simp [State.lo, hpc, h₁, State.next_eq hpc, hx]
  rw [h.read (by omega) hxp, State.expected_stamped (by rw [hpc, h₁]; simp) hxs]

/--
payload を取り出す。次に取る index `x` の slot から claim した値が出てきて、slot には stamp だけが残る。
取り出しの履歴は index `x` の分だけ伸びる。
-/
theorem Inv.take (h : Inv σ) {c₀ c : ConsumerPc T} {x : Nat} (hpc : σ.consumerPc = c₀)
    (h₁ : c₀.clearing = none) (hx : c₀.next σ.queue.sequenceNumber = x)
    (hxs : σ.producerPc.unstamped ≠ some x) (hxp : x < σ.queue.producer) (h₂ : c.clearing = some x)
    (hok : ConsumerOk σ.queue.sequenceNumber σ.queue.producer σ.producerPc.unstamped c) :
    Inv { σ with queue := σ.queue.setValue (σ.queue.pos x) none, consumerPc := c,
                 taken := σ.taken ++ [(x, (σ.queue.ringBuffer (σ.queue.pos x)).value)] } := by
  have hσx : σ.next = x := (State.next_eq hpc).trans hx
  have hlo : σ.lo = x := by simp [State.lo, hpc, h₁, hσx]
  have h1 : 1 ≤ x := hlo ▸ h.one_le
  have hnext : c.next σ.queue.sequenceNumber = x + 1 := ConsumerPc.next_of_clearing h₂ _
  have hread := h.read_next hpc h₁ hx hxs hxp
  have hc : σ.consumerPc.clearing = none := hpc ▸ h₁
  refine { h with
    one_le := by simpa only [State.lo, h₂, Option.getD_some] using h1
    unstamped_next := fun p hp => by
      have := hσx ▸ h.unstamped_next p hp
      have hne : p ≠ x := fun he => hxs (he ▸ hp)
      simp only [State.next, RingQueue.setValue_sequenceNumber, hnext]; omega
    taken := by
      simp only [State.next, RingQueue.setValue_sequenceNumber, hnext, Nat.add_sub_cancel, hread]
      rw [h.taken, hσx, takenSpec_pred _ h1]
    slots := by
      simp only [State.lo, h₂, Option.getD_some]
      refine (hlo ▸ h.slots).update (Nat.le_refl x) hxp (fun j hj => ?_) ?_ fun i _ _ hi => ?_
      · simp [RingQueue.setValue_ringBuffer, h.pos_eq, hj]
      · simp [RingQueue.setValue_ringBuffer, ← h.pos_eq, hread, State.expected, h₂]
      · simp [State.expected, hc, h₂, Ne.symm hi]
    producer := by simpa only [State.lo, h₂, Option.getD_some] using hlo ▸ h.producer
    consumer := hok }

/-- stamp を 0 に戻す。窓の先頭の slot が空になり、窓が一つ縮む。 -/
theorem Inv.clear (h : Inv σ) {c₀ c : ConsumerPc T} {x : Nat} (hpc : σ.consumerPc = c₀)
    (rs : List (Reply T)) (as : List T) (h₁ : c₀.clearing = some x) (h₂ : c.clearing = none)
    (hnext : c.next σ.queue.sequenceNumber = x + 1)
    (hok : ConsumerOk σ.queue.sequenceNumber σ.queue.producer σ.producerPc.unstamped c) :
    Inv { σ with queue := σ.queue.setId (σ.queue.pos x) 0, consumerPc := c, replies := rs,
                 acted := as } := by
  subst hpc
  have hlo : σ.lo = x := by simp [State.lo, h₁]
  have hnx : σ.next = x + 1 := ConsumerPc.next_of_clearing h₁ _
  have hxp : x < σ.queue.producer := by have := h.next_le_seq; have := h.seq_le; omega
  have hread : σ.queue.ringBuffer (σ.queue.pos x) = ⟨x, none⟩ := by
    rw [h.read (by omega) hxp]; simp [State.expected, h₁]
  refine { h with
    one_le := by
      simp only [State.lo, h₂, Option.getD_none, State.next, RingQueue.setId_sequenceNumber, hnext]
      omega
    unstamped_next := fun p hp => by
      simpa only [State.next, RingQueue.setId_sequenceNumber, hnext] using hnx ▸ h.unstamped_next p hp
    taken := by
      simpa only [State.next, RingQueue.setId_sequenceNumber, hnext] using hnx ▸ h.taken
    slots := by
      simp only [State.lo, h₂, Option.getD_none, State.next, RingQueue.setId_sequenceNumber, hnext]
      refine (hlo ▸ h.slots).shrink hxp (fun j hj => ?_) ?_ fun i hi _ => ?_
      · simp [RingQueue.setId_ringBuffer, h.pos_eq, hj]
      · simp [RingQueue.setId_ringBuffer, ← h.pos_eq, hread]
      · have : x ≠ i := by omega
        simp [State.expected, h₁, h₂, this]
    producer := by
      simp only [State.lo, h₂, Option.getD_none, State.next, RingQueue.setId_sequenceNumber, hnext]
      exact h.producer.mono_lo (by omega)
    consumer := hok }

/-- `peek` が slot を読む。何も書き換えず、読んだ値は index `s` に claim した値である。 -/
theorem Inv.peek (h : Inv σ) {s : Nat} (hpc : σ.consumerPc = .peekRead s) :
    Inv { σ with consumerPc := .idle,
                 peeked := σ.peeked ++ [(s, (σ.queue.ringBuffer (σ.queue.pos s)).value)],
                 replies := σ.replies ++ [.peeked (σ.queue.ringBuffer (σ.queue.pos s)).value] } := by
  have hok := h.consumer
  rw [hpc] at hok
  obtain ⟨hs, hsp, hus⟩ := hok
  have h1 : 1 ≤ s := by simpa [State.next_eq hpc, ConsumerPc.next, ← hs] using h.one_le_next
  have hread := h.read_next hpc rfl hs.symm hus hsp
  refine { h.setConsumerPc hpc (c := .idle)
      (σ.replies ++ [.peeked (σ.queue.ringBuffer (σ.queue.pos s)).value]) rfl rfl rfl trivial with
    peeked := fun e he => ?_ }
  rcases List.mem_append.1 he with he | he
  · exact h.peeked e he
  · obtain rfl := List.mem_singleton.1 he
    exact ⟨h1, hsp, by simp [hread]⟩

/-- consumer の一歩は不変量を保つ。 -/
theorem Inv.consumer_step (h : Inv σ) : Inv (stepConsumer σ) := by
  have hok := h.consumer
  cases hpc : σ.consumerPc <;> rw [hpc] at hok <;> simp only [stepConsumer, hpc]
  case idle => exact h
  case panicked => exact hok.elim
  case pollLoadSeq => exact h.setConsumerPc hpc _ rfl rfl rfl rfl
  case pollLoadProducer s =>
    split
    · exact h.setConsumerPc hpc _ rfl rfl rfl ⟨hok, ‹_›⟩
    · exact h.setConsumerPc hpc _ rfl rfl rfl trivial
  case pollLoadId s =>
    split
    · exact h.setConsumerPc hpc _ rfl rfl rfl ⟨hok.1, hok.2, h.stamped_of_id hpc rfl hok.1.symm hok.2 ‹_›⟩
    · exact h.setConsumerPc hpc _ rfl rfl rfl trivial
  case pollStoreSeq s => exact h.setConsumer hpc rfl (s + 1) _ rfl hok.2.1 hok.1 ⟨rfl, hok.2⟩
  case pollTake s => exact h.take hpc rfl rfl hok.2.2 hok.2.1 rfl ⟨hok.1, hok.2.1⟩
  case pollClear s v => exact h.clear hpc _ _ rfl rfl hok.1 trivial
  case drainLoadProducer limit => exact h.setConsumerPc hpc _ rfl rfl rfl ⟨h.seq_le, Nat.le_refl _⟩
  case drainLoadSeq limit p =>
    split
    · exact h.setConsumerPc hpc _ rfl rfl rfl trivial
    · exact h.setConsumerPc hpc _ rfl rfl rfl ⟨rfl, by have := hok.2; omega⟩
  case drainStoreSeq s r =>
    split
    · exact h.setConsumer hpc rfl (s + r) _ rfl hok.2 hok.1 ⟨rfl, ‹_›, hok.2⟩
    · exact h.setConsumer hpc rfl (s + r) _ rfl hok.2
        (by simp only [ConsumerPc.next]; have := hok.1; omega) trivial
  case drainLoadId s r i =>
    split
    · exact h.setConsumerPc hpc _ rfl rfl rfl
        ⟨hok.1, hok.2.1, hok.2.2, h.stamped_of_id hpc rfl rfl (by have := hok.2; omega) ‹_›⟩
    · exact h
  case drainTake s r i =>
    obtain ⟨hs, hi, hr, hus⟩ := hok
    have h1 : 1 ≤ s + i := by simpa [State.next_eq hpc, ConsumerPc.next] using h.one_le_next
    have hread := h.read_next (x := s + i) hpc rfl rfl hus (by omega)
    have hlen := h.claimed_length
    exact h.take (x := s + i) hpc rfl rfl hus (by omega) rfl ⟨hs, hi, hr, by rw [hread, List.getElem?_eq_getElem (by omega)]; rfl⟩
  case drainClear s r i v =>
    obtain ⟨hs, hi, hr, hv⟩ := hok
    cases v with
    | none => simp at hv
    | some t =>
      dsimp only
      split
      · exact h.clear hpc _ _ rfl rfl rfl ⟨hs, ‹_›, hr⟩
      · exact h.clear hpc _ _ rfl rfl (by simp only [ConsumerPc.next]; omega) trivial
  case peekLoadSeq => exact h.setConsumerPc hpc _ rfl rfl rfl rfl
  case peekLoadProducer s =>
    split
    · exact h.setConsumerPc hpc _ rfl rfl rfl ⟨hok, ‹_›⟩
    · exact h.setConsumerPc hpc _ rfl rfl rfl trivial
  case peekLoadId s =>
    split
    · exact h.setConsumerPc hpc _ rfl rfl rfl ⟨hok.1, hok.2, h.stamped_of_id hpc rfl hok.1.symm hok.2 ‹_›⟩
    · exact h.setConsumerPc hpc _ rfl rfl rfl trivial
  case peekRead s => exact h.peek hpc

/-! ## 実行全体 -/

theorem ProducerPc.eq_idle {pc : ProducerPc T} (h : pc.isIdle = true) : pc = .idle := by
  cases pc <;> simp_all [isIdle]

theorem ConsumerPc.eq_idle {c : ConsumerPc T} (h : c.isIdle = true) : c = .idle := by
  cases c <;> simp_all [isIdle]

/-- 呼び出しを始める一歩は program counter を動かすだけである。 -/
theorem Inv.call (h : Inv σ) {c : Call T} {σ' : State T} (hs : step σ (.call c) = some σ') : Inv σ' := by
  cases c with
  | offer v =>
    simp only [step, Option.ite_none_right_eq_some, Option.some.injEq] at hs
    obtain ⟨hi, rfl⟩ := hs
    exact h.setProducerPc _ (by rw [ProducerPc.eq_idle hi]; rfl) rfl trivial
  | poll =>
    simp only [step, Option.ite_none_right_eq_some, Option.some.injEq] at hs
    obtain ⟨hi, rfl⟩ := hs
    exact h.setConsumerPc (ConsumerPc.eq_idle hi) _ rfl rfl rfl trivial
  | drain limit =>
    simp only [step, Option.ite_none_right_eq_some, Option.some.injEq] at hs
    obtain ⟨hi, rfl⟩ := hs
    exact h.setConsumerPc (ConsumerPc.eq_idle hi) _ rfl rfl rfl trivial
  | peek =>
    simp only [step, Option.ite_none_right_eq_some, Option.some.injEq] at hs
    obtain ⟨hi, rfl⟩ := hs
    exact h.setConsumerPc (ConsumerPc.eq_idle hi) _ rfl rfl rfl trivial

/-- どの一歩も不変量を保つ。 -/
theorem step_inv (h : Inv σ) {a : Action T} {σ' : State T} (hs : step σ a = some σ') : Inv σ' := by
  cases a with
  | call c => exact h.call hs
  | producer =>
    simp only [step, Option.ite_none_left_eq_some, Option.some.injEq] at hs
    exact hs.2 ▸ h.producer_step
  | consumer =>
    simp only [step, Option.ite_none_left_eq_some, Option.some.injEq] at hs
    exact hs.2 ▸ h.consumer_step

/-- 到達可能な状態はすべて不変量を満たす。 -/
theorem reach_inv {queueSize : Nat} (hr : Reach queueSize σ) : Inv σ :=
  Reachable.induct_inv (init_inv queueSize) (fun _ _ _ h hs => step_inv h hs) hr

theorem takenSpec_length (claimed : List T) (n : Nat) : (takenSpec claimed n).length = n := by
  simp [takenSpec]

/--
**SPSC queue の安全性。** producer と consumer の step をどう混ぜても：

* 取り出しの履歴は index `1, 2, …` を順に一度ずつ並べたもので、index `k` の payload は
  `k` 番目に claim した `offer` の値である（`producer = claimed.length + 1` なので
  `claimed[k-1]` は index `k` を claim した値）。取り出した数は claim した数を越えない。
* `peek` が返した payload も、その index を claim した値である。
* producer が payload を書く slot は空で、取られていない payload を上書きしない。
* `drain` は `"Found a None!"` で panic しない。
-/
theorem spsc_takes_claimed_payloads {queueSize : Nat} {σ : State T} (hr : Reach queueSize σ) :
    σ.queue.producer = σ.claimed.length + 1 ∧
    σ.taken = takenSpec σ.claimed σ.taken.length ∧ σ.taken.length ≤ σ.claimed.length ∧
    (∀ e ∈ σ.peeked, 1 ≤ e.1 ∧ e.1 ≤ σ.claimed.length ∧ e.2 = σ.claimed[e.1 - 1]?) ∧
    (∀ v p, σ.producerPc = .writeValue v p → (σ.queue.ringBuffer (σ.queue.pos p)).value = none) ∧
    σ.consumerPc ≠ .panicked := by
  have h := reach_inv hr
  have hlen := h.claimed_length
  have hn : σ.taken.length = σ.next - 1 := by rw [h.taken, takenSpec_length]
  refine ⟨hlen, by rw [hn]; exact h.taken, ?_, fun e he => ?_, fun v p hpc => by rw [h.write_slot hpc],
    fun hpc => ?_⟩
  · have := h.next_le_seq; have := h.seq_le; omega
  · obtain ⟨h1, h2, h3⟩ := h.peeked e he; exact ⟨h1, by omega, h3⟩
  · have := h.consumer; rw [hpc] at this; exact this

/-- 容量 2 の queue に `7` を offer して、poll する実行。 -/
def offerPollTrace : List (Action Nat) :=
  .call (.offer 7) :: List.replicate 6 .producer ++ .call .poll :: List.replicate 6 .consumer

/-- `offerPollTrace` の後の状態。 -/
def offerPollState : State Nat := (run step (init 2) offerPollTrace).getD (init 2)

example : offerPollState.taken = [(1, some 7)] ∧ offerPollState.replies = [.offered true, .polled (some 7)] :=
  ⟨rfl, rfl⟩

theorem offerPollState_safe :
    Reach 2 offerPollState ∧
    offerPollState.queue.producer = offerPollState.claimed.length + 1 ∧
    offerPollState.taken = takenSpec offerPollState.claimed offerPollState.taken.length ∧
    offerPollState.taken.length ≤ offerPollState.claimed.length ∧
    (∀ e ∈ offerPollState.peeked,
      1 ≤ e.1 ∧ e.1 ≤ offerPollState.claimed.length ∧ e.2 = offerPollState.claimed[e.1 - 1]?) ∧
    (∀ v p, offerPollState.producerPc = .writeValue v p →
      (offerPollState.queue.ringBuffer (offerPollState.queue.pos p)).value = none) ∧
    offerPollState.consumerPc ≠ .panicked :=
  have hr : Reach 2 offerPollState := Reachable.of_run Reachable.init
    (rfl : run step (init 2) offerPollTrace = some offerPollState)
  ⟨hr, spsc_takes_claimed_payloads hr⟩

end RustCommon.Queue.Spsc
