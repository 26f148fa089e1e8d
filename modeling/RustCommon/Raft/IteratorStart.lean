import RustCommon.Raft.MessageFiles
import Mathlib.Logic.Relation

/-!
# `MessageIterator`：読み始める位置と読む順序

`MessageIterator::new` は `find_starting_file` で選んだ file を `open_readonly` で開き、位置 0 から
`read_new(pos)?` を繰り返す。読んだ message の id が `start_message_id` 以上か 0 ならそこで止まり、
そうでなければ `next_pos()` に進む。

* `open_readonly` と `read_new` は src にない `crate::file` にある。`MessageFiles.lean` と同じく、開いた結果と、
  開いた file で `read_new` が位置ごとに返す結果を外から与える。
* このループには上限がない。`read_new` が同じ位置か前の位置を返し続ければ終わらない。ここでは
  `read_new` の回数の上限 `fuel` を与え、その回数でループを抜けなければ `none` とする
  （`find_starting_file` の panic も `none`）。
* `next` が使わない `start_message_id` は `MessageIterator` に持たない。

## 読み始める位置

`next_pos()` が位置を必ず進め、file の終わり `N` より先では `read_new` が誤りを返すなら、ループは
`N + 1` 回までの `read_new` で必ず抜け、結果は上限によらない。抜けた位置までに読み飛ばした message は
どれも id が 0 でなく `start_message_id` より小さく、抜けた位置の message は id が `start_message_id` 以上か
0 である。読み飛ばしの途中で `read_new` が誤りを返せば、`new` はその誤りを返す
（`messageIterator_new_starts`）。

## 読む順序

`next` は message を返すたびに位置を `next_pos()` に進め、ほかの結果では位置を変えない。だから `next` を
何回呼んでも、返る message は今の位置から `next_pos()` を辿って読める列の頭であり、飛ばしも重なりもない
（`messageIterator_next_reads_in_order`）。
-/

namespace RustCommon.Raft

/-- `MessageIterator::new` のループ：位置 `pos` から、id が `start_message_id` 以上か 0 の message まで
`next_pos()` を辿る。`read_new` の誤りは `?` でそのまま返す。`fuel` 回の `read_new` で抜けなければ `none`。 -/
def skipTo (readNew : Nat → Except Error MessageRead) (startMessageId : UInt64) : Nat → Nat → Option (Except Error Nat)
  | 0, _ => none
  | fuel + 1, pos =>
    match readNew pos with
    | .error e => some (.error e)
    | .ok msg =>
      if msg.messageId ≥ startMessageId ∨ msg.messageId = 0 then some (.ok pos)
      else skipTo readNew startMessageId fuel msg.nextPos

/-- `MessageIterator::new`。`none` は `find_starting_file` の panic か、`fuel` 回の `read_new` でループを
抜けないこと。 -/
def MessageIterator.new (number : UInt32) (startMessageId maxCommitId : UInt64)
    (messageFiles : List MessageFileInfo) (openReadonly : List Char → Except Error (Nat → Except Error MessageRead))
    (fuel : Nat) : Option (Except Error MessageIterator) :=
  (findStartingFile messageFiles startMessageId).bind fun file =>
    match openReadonly file.path with
    | .error e => some (.error e)
    | .ok reader =>
      (skipTo reader startMessageId fuel 0).map fun
        | .error e => .error e
        | .ok pos => .ok ⟨reader, file.fileId, maxCommitId, messageFiles, number, pos⟩

/-! ## 読み飛ばし -/

section Skip

variable (readNew : Nat → Except Error MessageRead) (startMessageId : UInt64)

/-- ループが位置 `pos` の message を読み飛ばして `pos'` に進む：id が 0 でなく `start_message_id` より小さい。 -/
def SkipEdge (pos pos' : Nat) : Prop :=
  ∃ msg, readNew pos = .ok msg ∧ msg.messageId ≠ 0 ∧ msg.messageId < startMessageId ∧ msg.nextPos = pos'

/-- 位置 `pos` から読み飛ばしを繰り返して `pos'` に着く。 -/
def Skips : Nat → Nat → Prop := Relation.ReflTransGen (SkipEdge readNew startMessageId)

/-- ループが位置 `pos` で抜けるときの結果：誤りか、止まる message のある位置。 -/
def ExitsAt (pos : Nat) : Except Error Nat → Prop
  | .error e => readNew pos = .error e
  | .ok p => p = pos ∧ ∃ msg, readNew pos = .ok msg ∧ (startMessageId ≤ msg.messageId ∨ msg.messageId = 0)

/-- ループの一回：抜けるか、読み飛ばして次の位置の残りのループになる。 -/
theorem skipTo_succ (fuel pos : Nat) :
    (∃ r, ExitsAt readNew startMessageId pos r ∧ skipTo readNew startMessageId (fuel + 1) pos = some r) ∨
      ∃ pos', SkipEdge readNew startMessageId pos pos' ∧
        skipTo readNew startMessageId (fuel + 1) pos = skipTo readNew startMessageId fuel pos' := by
  rw [skipTo]
  split
  · next e h => exact .inl ⟨.error e, h, rfl⟩
  · next msg h =>
    split
    · exact .inl ⟨.ok pos, ⟨rfl, msg, h, by simpa [ge_iff_le] using ‹_›⟩, rfl⟩
    · next hc =>
      simp only [ge_iff_le, not_or] at hc
      exact .inr ⟨_, ⟨msg, h, hc.2, UInt64.not_le.1 hc.1, rfl⟩, rfl⟩

variable {readNew startMessageId}

/-- ループの結果は、読み飛ばしの先で抜けたときの結果である。 -/
theorem skipTo_some : ∀ {fuel pos : Nat} {r : Except Error Nat}, skipTo readNew startMessageId fuel pos = some r →
    ∃ p, Skips readNew startMessageId pos p ∧ ExitsAt readNew startMessageId p r
  | 0, _, _, h => by cases h
  | fuel + 1, pos, r, h => by
    rcases skipTo_succ _ _ fuel pos with ⟨r', hx, he⟩ | ⟨pos', hedge, he⟩
    · rw [he, Option.some.injEq] at h
      exact ⟨pos, .refl, h ▸ hx⟩
    · obtain ⟨p, hs, hx⟩ := skipTo_some (he ▸ h)
      exact ⟨p, .head hedge hs, hx⟩

/-- 上限を増やしても、抜けたループの結果は変わらない。 -/
theorem skipTo_add : ∀ {fuel pos : Nat} {r : Except Error Nat} (k : Nat),
    skipTo readNew startMessageId fuel pos = some r → skipTo readNew startMessageId (fuel + k) pos = some r
  | 0, _, _, _, h => by cases h
  | fuel + 1, pos, r, k, h => by
    rw [Nat.add_right_comm]
    cases hr : readNew pos with
    | error e => simpa [skipTo, hr] using h
    | ok msg =>
      simp only [skipTo, hr] at h ⊢
      split at h
      · rwa [if_pos ‹_›]
      · rw [if_neg ‹_›]; exact skipTo_add k h

/-- 上限を変えても、抜けたループの結果は一つである。 -/
theorem skipTo_unique {fuel fuel' pos : Nat} {r r' : Except Error Nat}
    (h : skipTo readNew startMessageId fuel pos = some r) (h' : skipTo readNew startMessageId fuel' pos = some r') :
    r = r' := by
  have := skipTo_add (fuel' - fuel) h
  have := skipTo_add (fuel - fuel') h'
  rw [show fuel + (fuel' - fuel) = fuel' + (fuel - fuel') by omega] at *
  simp_all

/-- `next_pos()` が位置を進め、`N` より先で `read_new` が message を返さなければ、`N - pos` 回より多い
`read_new` でループは抜ける。 -/
theorem skipTo_isSome {N : Nat} (hinc : ∀ p msg, readNew p = .ok msg → p < msg.nextPos)
    (hend : ∀ p msg, readNew p = .ok msg → p < N) :
    ∀ {fuel pos : Nat}, N - pos < fuel → (skipTo readNew startMessageId fuel pos).isSome
  | 0, _, h => absurd h (Nat.not_lt_zero _)
  | fuel + 1, pos, h => by
    rcases skipTo_succ readNew startMessageId fuel pos with ⟨r, -, he⟩ | ⟨pos', ⟨msg, hr, -, -, rfl⟩, he⟩
    · rw [he]; rfl
    · rw [he]
      have := hinc pos msg hr
      have := hend pos msg hr
      exact skipTo_isSome hinc hend (by omega)

end Skip

/-! ## `MessageIterator::new` -/

/--
**`MessageIterator::new` が読み始める位置。**
一覧が空でなく（`find_starting_file` が file を返し）、その file が開け、開いた file で `next_pos()` が位置を
必ず進め、`N` より先では `read_new` が message を返さないとする。このとき `new` は `N + 1` 回までの
`read_new` で結果を返し、どの上限で返す結果もそれに等しい。結果は、位置 0 から読み飛ばした先の位置 `p`
（読み飛ばした message はどれも id が 0 でなく `start_message_id` より小さい）で抜けたもので、
`read_new(p)` が誤りならその誤り、そうでなければ `p` の message の id は `start_message_id` 以上か 0 で、
iterator は選んだ file の id と位置 `p` から読み始める。
-/
theorem messageIterator_new_starts (number : UInt32) (startMessageId maxCommitId : UInt64)
    (messageFiles : List MessageFileInfo) (openReadonly : List Char → Except Error (Nat → Except Error MessageRead))
    {file : MessageFileInfo} {reader : Nat → Except Error MessageRead} {N : Nat}
    (hfile : findStartingFile messageFiles startMessageId = some file) (hopen : openReadonly file.path = .ok reader)
    (hinc : ∀ p msg, reader p = .ok msg → p < msg.nextPos) (hend : ∀ p msg, reader p = .ok msg → p < N) :
    ∃ r, MessageIterator.new number startMessageId maxCommitId messageFiles openReadonly (N + 1) = some r ∧
      (∀ fuel r', MessageIterator.new number startMessageId maxCommitId messageFiles openReadonly fuel = some r' →
        r' = r) ∧
      ∃ p, Skips reader startMessageId 0 p ∧
        ((∃ e, reader p = .error e ∧ r = .error e) ∨
          ∃ msg, reader p = .ok msg ∧ (startMessageId ≤ msg.messageId ∨ msg.messageId = 0) ∧
            r = .ok ⟨reader, file.fileId, maxCommitId, messageFiles, number, p⟩) := by
  have hnew : ∀ fuel, MessageIterator.new number startMessageId maxCommitId messageFiles openReadonly fuel =
      (skipTo reader startMessageId fuel 0).map fun
        | .error e => .error e
        | .ok pos => .ok ⟨reader, file.fileId, maxCommitId, messageFiles, number, pos⟩ := fun fuel => by
    simp only [MessageIterator.new, hfile, hopen, Option.some_bind]
  have hsome : (skipTo reader startMessageId (N + 1) 0).isSome := skipTo_isSome hinc hend (by omega)
  obtain ⟨s, hs⟩ := Option.isSome_iff_exists.1 hsome
  obtain ⟨p, hskip, hx⟩ := skipTo_some hs
  refine ⟨_, by rw [hnew, hs]; rfl, fun fuel r' h => ?_, p, hskip, ?_⟩
  · rw [hnew] at h
    obtain ⟨s', hs', rfl⟩ := Option.map_eq_some'.1 h
    rw [skipTo_unique hs' hs]
  · rcases s with e | pos
    · exact .inl ⟨e, hx, rfl⟩
    · obtain ⟨rfl, msg, hr, hm⟩ := hx
      exact .inr ⟨msg, hr, hm, rfl⟩

/-- 位置 0、10、20 に id 1、2、3 の message を持ち、その先では `NoMessage` を返す file。 -/
def threeMessages (pos : Nat) : Except Error MessageRead :=
  if pos = 0 then .ok ⟨1, 10⟩ else if pos = 10 then .ok ⟨2, 20⟩ else if pos = 20 then .ok ⟨3, 30⟩
  else .error .noMessage

theorem threeMessages_starts :
    findStartingFile [⟨"test.commit.1".toList, 1, 0⟩] 2 = some ⟨"test.commit.1".toList, 1, 0⟩ ∧
    (∀ p msg, threeMessages p = .ok msg → p < msg.nextPos) ∧ (∀ p msg, threeMessages p = .ok msg → p < 21) ∧
    ∃ r, MessageIterator.new 5 2 9 [⟨"test.commit.1".toList, 1, 0⟩] (fun _ => .ok threeMessages) (21 + 1) = some r ∧
      (∀ fuel r', MessageIterator.new 5 2 9 [⟨"test.commit.1".toList, 1, 0⟩] (fun _ => .ok threeMessages) fuel =
        some r' → r' = r) ∧
      ∃ p, Skips threeMessages 2 0 p ∧
        ((∃ e, threeMessages p = .error e ∧ r = .error e) ∨
          ∃ msg, threeMessages p = .ok msg ∧ (2 ≤ msg.messageId ∨ msg.messageId = 0) ∧
            r = .ok ⟨threeMessages, 1, 9, [⟨"test.commit.1".toList, 1, 0⟩], 5, p⟩) := by
  have hfile : findStartingFile [⟨"test.commit.1".toList, 1, 0⟩] 2 = some ⟨"test.commit.1".toList, 1, 0⟩ := rfl
  have hinc : ∀ p msg, threeMessages p = .ok msg → p < msg.nextPos := by
    intro p msg h; unfold threeMessages at h; split_ifs at h <;> cases h <;> subst_vars <;> decide
  have hend : ∀ p msg, threeMessages p = .ok msg → p < 21 := by
    intro p msg h; unfold threeMessages at h; split_ifs at h <;> cases h <;> subst_vars <;> decide
  exact ⟨hfile, hinc, hend, messageIterator_new_starts 5 2 9 _ (fun _ => .ok threeMessages) hfile rfl hinc hend⟩

/-! ## `next` が読む順序 -/

/-- 位置 `pos` から `next_pos()` を辿って `read_new` で読める message の列。`read_new` が誤りを返すか、
`fuel` 個読んだところで終わる。file に書かれた message の並びそのものである。 -/
def messageChain (readNew : Nat → Except Error MessageRead) : Nat → Nat → List MessageRead
  | 0, _ => []
  | fuel + 1, pos =>
    match readNew pos with
    | .ok msg => msg :: messageChain readNew fuel msg.nextPos
    | .error _ => []

/-- 読む数を一つ増やしても、列は後ろに伸びるだけである。 -/
theorem messageChain_prefix_succ (readNew : Nat → Except Error MessageRead) :
    ∀ fuel pos, messageChain readNew fuel pos <+: messageChain readNew (fuel + 1) pos
  | 0, _ => List.nil_prefix
  | fuel + 1, pos => by
    rw [messageChain, messageChain]
    split
    · exact List.cons_prefix_cons.2 ⟨rfl, messageChain_prefix_succ readNew fuel _⟩
    · exact List.prefix_refl _

/-- `next` が返す message は、今の位置で `read_new` が読んだものである。 -/
theorem MessageIterator.next_reads (overflowChecks : Bool) {it it' : MessageIterator} {reader : MessageRead}
    (h : it.next overflowChecks = some (it', .ok (.some reader))) : it.currentReader it.pos = .ok reader := by
  unfold MessageIterator.next at h
  split at h
  · cases h
  · split at h
    · split at h <;> cases h
      assumption
    · simp only [Option.bind_eq_bind, Option.bind_eq_some] at h
      obtain ⟨_, -, _, -, _, -, h⟩ := h
      split at h <;> cases h
    · cases h

/--
**`next` は今の file の message を、位置から順に、飛ばさず重ねずに返す。**
どちらの build でも、`read_new` が何を返しても、`next` を `k` 回呼んで返る message の列は、今の位置から
`next_pos()` を辿って読める列の頭である。
-/
theorem messageIterator_next_reads_in_order (overflowChecks : Bool) (k : Nat) (it : MessageIterator) :
    messagesOf (it.nextN overflowChecks k) <+: messageChain it.currentReader k it.pos := by
  induction k generalizing it with
  | zero => exact List.nil_prefix
  | succ k ih =>
    rw [MessageIterator.nextN]
    cases hn : it.next overflowChecks with
    | none => exact List.nil_prefix
    | some p =>
      obtain ⟨it', r⟩ := p
      rcases it.next_cases overflowChecks hn with ⟨reader, rfl, -, -, rfl⟩ | ⟨rfl, hr⟩
      · simp only [messageChain, it.next_reads overflowChecks hn, messagesOf, List.filterMap_cons]
        exact List.cons_prefix_cons.2 ⟨rfl, ih _⟩
      · rw [messagesOf_cons_of_ne hr]
        exact (ih _).trans (messageChain_prefix_succ _ _ _)

end RustCommon.Raft
