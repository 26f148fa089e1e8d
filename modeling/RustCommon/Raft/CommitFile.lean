import RustCommon.Buffer.Fields
import RustCommon.Raft.MessageFiles

/-!
# raft の commit record

`raft/mod.rs` の `CommitFile for MemoryMappedInt` は、commit file の位置 `pos` から始まる 64 byte の
record に、raft の term を field ごとに書く。field の配置は `TERM_ID_OFFSET` から `LENGTH_OF_COMMIT`
までの定数で決まる。`FileCollection::add_commit_file` は、file の先頭の record から term id と
max message id と開始時刻を読み、開始時刻が 0 でなければ file を `commit_files` に足す。

* `MemoryMappedInt`（`a19_concurrent::buffer::mmap_buffer`）は src にない。`CommitFile` の実装が
  使うのは `DirectByteBuffer` の `get_*` と `put_*` だけなので、src にある `DirectByteBuffer` の
  実装 `AtomicByteBufferInt` の accessor で書く。
* setter と getter は、型と offset だけが違う一つの族である（`setField`、`getField`）。
  `set_committed` だけは値を取らず、いつも 1 を書く。
* 位置は `Nat` で持つ。`OFFSET + *pos` の `usize` の足し算が回るのは `pos` が `2 ^ 64 - 64` を
  超えるときだけで、その場合は書かない。

## 往復

`save_term` は `TermCommit` の十二の field のうち `committed` を除く十一を書く。書く範囲は互いに
重ならないので、record を getter で読み戻すと、`committed` 以外は書いた値を、`committed` は
書く前の値を返す（`saveTerm_roundTrip`）。`committed` を変えるのは `set_committed` だけである。
-/

namespace RustCommon.Raft

open Buffer

/-! ## record の配置 -/

/-- `TERM_ID_OFFSET`。 -/
def TERM_ID_OFFSET : Nat := 0

/-- `VERSION_OFFSET`。 -/
def VERSION_OFFSET : Nat := 8

/-- `TYPE_OFFSET`。 -/
def TYPE_OFFSET : Nat := 10

/-- `SERVER_OFFSET`。 -/
def SERVER_OFFSET : Nat := 12

/-- `LEADER_OFFSET`。 -/
def LEADER_OFFSET : Nat := 16

/-- `COMMITTED`。 -/
def COMMITTED : Nat := 20

/-- `START_TIMESTAMP`。 -/
def START_TIMESTAMP : Nat := 24

/-- `COMMITTED_TIMESTAMP`。 -/
def COMMITTED_TIMESTAMP : Nat := 32

/-- `FILE_ID`。 -/
def FILE_ID : Nat := 40

/-- `FILE_POSITION_OFFSET`。 -/
def FILE_POSITION_OFFSET : Nat := 44

/-- `MAX_MESSAGE_ID`。 -/
def MAX_MESSAGE_ID : Nat := 52

/-- `LENGTH_OF_COMMIT`。 -/
def LENGTH_OF_COMMIT : Nat := 60

/-- `TermCommit`。`save_term` が読まない `buffer` は書かない。 -/
structure TermCommit where
  termId : UInt64
  version : UInt16
  typeId : UInt16
  serverId : UInt32
  leaderId : UInt32
  committed : UInt16
  timestamp : UInt64
  committedTimestamp : UInt64
  fileId : UInt32
  filePositionOffset : UInt64
  fileMaxMessageId : UInt64
  length : UInt32
deriving DecidableEq

/-! ## `CommitFile` の accessor -/

namespace CommitFile

/-- Modelled from the spec: `MemoryMappedInt` の `put_*`（src にない）。spec §6 は、log 層が record を
buffer の offset で番地づけした accessor の上に直に置くと言い、§4.1 はその accessor を big-endian の
get/put と定める。そこで src にある `DirectByteBuffer` の実装 `AtomicByteBufferInt` の put で書く。
setter の共通の形：record の位置 `pos` から `offset` の所に型 `k` の値を書く。 -/
def setField (k : NumKind) (offset : Nat) (b : AtomicByteBufferInt) (pos : Nat) (val : k.Val) :
    Option AtomicByteBufferInt :=
  k.put b (offset + pos) val

/-- Modelled from the spec: `MemoryMappedInt` の `get_*`（src にない）。`setField` と同じく spec §6 と §4.1 に
より、`AtomicByteBufferInt` の get で書く。getter の共通の形。 -/
def getField (k : NumKind) (offset : Nat) (b : AtomicByteBufferInt) (pos : Nat) : Option k.Val :=
  k.get b (offset + pos)

/-- `set_term`。 -/
def setTerm (b : AtomicByteBufferInt) (pos : Nat) (val : UInt64) : Option AtomicByteBufferInt :=
  setField .u64 TERM_ID_OFFSET b pos val

/-- `term`。 -/
def term (b : AtomicByteBufferInt) (pos : Nat) : Option UInt64 := getField .u64 TERM_ID_OFFSET b pos

/-- `set_version`。 -/
def setVersion (b : AtomicByteBufferInt) (pos : Nat) (val : UInt16) : Option AtomicByteBufferInt :=
  setField .u16 VERSION_OFFSET b pos val

/-- `version`。 -/
def version (b : AtomicByteBufferInt) (pos : Nat) : Option UInt16 := getField .u16 VERSION_OFFSET b pos

/-- `set_msg_type`。 -/
def setMsgType (b : AtomicByteBufferInt) (pos : Nat) (val : UInt16) : Option AtomicByteBufferInt :=
  setField .u16 TYPE_OFFSET b pos val

/-- `msg_type`。 -/
def msgType (b : AtomicByteBufferInt) (pos : Nat) : Option UInt16 := getField .u16 TYPE_OFFSET b pos

/-- `set_server`。 -/
def setServer (b : AtomicByteBufferInt) (pos : Nat) (serverId : UInt32) : Option AtomicByteBufferInt :=
  setField .u32 SERVER_OFFSET b pos serverId

/-- `server`。 -/
def server (b : AtomicByteBufferInt) (pos : Nat) : Option UInt32 := getField .u32 SERVER_OFFSET b pos

/-- `set_leader`。 -/
def setLeader (b : AtomicByteBufferInt) (pos : Nat) (val : UInt32) : Option AtomicByteBufferInt :=
  setField .u32 LEADER_OFFSET b pos val

/-- `leader`。 -/
def leader (b : AtomicByteBufferInt) (pos : Nat) : Option UInt32 := getField .u32 LEADER_OFFSET b pos

/-- `set_committed`：値を取らず、いつも 1 を書く。 -/
def setCommitted (b : AtomicByteBufferInt) (pos : Nat) : Option AtomicByteBufferInt :=
  setField .u16 COMMITTED b pos (1 : UInt16)

/-- `committed`。 -/
def committed (b : AtomicByteBufferInt) (pos : Nat) : Option UInt16 := getField .u16 COMMITTED b pos

/-- `set_start_time`。 -/
def setStartTime (b : AtomicByteBufferInt) (pos : Nat) (time : UInt64) : Option AtomicByteBufferInt :=
  setField .u64 START_TIMESTAMP b pos time

/-- `start_time`。 -/
def startTime (b : AtomicByteBufferInt) (pos : Nat) : Option UInt64 := getField .u64 START_TIMESTAMP b pos

/-- `set_committed_timestamp`。 -/
def setCommittedTimestamp (b : AtomicByteBufferInt) (pos : Nat) (val : UInt64) :
    Option AtomicByteBufferInt :=
  setField .u64 COMMITTED_TIMESTAMP b pos val

/-- `committed_timestamp`。 -/
def committedTimestamp (b : AtomicByteBufferInt) (pos : Nat) : Option UInt64 :=
  getField .u64 COMMITTED_TIMESTAMP b pos

/-- `set_file_id`。 -/
def setFileId (b : AtomicByteBufferInt) (pos : Nat) (val : UInt32) : Option AtomicByteBufferInt :=
  setField .u32 FILE_ID b pos val

/-- `file_id`。 -/
def fileId (b : AtomicByteBufferInt) (pos : Nat) : Option UInt32 := getField .u32 FILE_ID b pos

/-- `set_file_position_offset`。 -/
def setFilePositionOffset (b : AtomicByteBufferInt) (pos : Nat) (val : UInt64) :
    Option AtomicByteBufferInt :=
  setField .u64 FILE_POSITION_OFFSET b pos val

/-- `file_position_offset`。 -/
def filePositionOffset (b : AtomicByteBufferInt) (pos : Nat) : Option UInt64 :=
  getField .u64 FILE_POSITION_OFFSET b pos

/-- `set_max_message_id`。 -/
def setMaxMessageId (b : AtomicByteBufferInt) (pos : Nat) (val : UInt64) : Option AtomicByteBufferInt :=
  setField .u64 MAX_MESSAGE_ID b pos val

/-- `max_message_id`。 -/
def maxMessageId (b : AtomicByteBufferInt) (pos : Nat) : Option UInt64 := getField .u64 MAX_MESSAGE_ID b pos

/-- `set_length_of_commit`。 -/
def setLengthOfCommit (b : AtomicByteBufferInt) (pos : Nat) (val : UInt32) : Option AtomicByteBufferInt :=
  setField .u32 LENGTH_OF_COMMIT b pos val

/-- `length_of_commit`。 -/
def lengthOfCommit (b : AtomicByteBufferInt) (pos : Nat) : Option UInt32 :=
  getField .u32 LENGTH_OF_COMMIT b pos

/-- `save_term`：`committed` を除く十一の field を、この順に setter で書く。setter の連鎖の途中で
panic すれば、そこで panic する。 -/
def saveTerm (b : AtomicByteBufferInt) (pos : Nat) (term : TermCommit) : Option AtomicByteBufferInt :=
  setTerm b pos term.termId >>= (setVersion · pos term.version) >>= (setMsgType · pos term.typeId) >>=
    (setServer · pos term.serverId) >>= (setLeader · pos term.leaderId) >>=
    (setStartTime · pos term.timestamp) >>= (setCommittedTimestamp · pos term.committedTimestamp) >>=
    (setFileId · pos term.fileId) >>= (setFilePositionOffset · pos term.filePositionOffset) >>=
    (setMaxMessageId · pos term.fileMaxMessageId) >>= (setLengthOfCommit · pos term.length)

/-- record の十二の field を getter で読んだもの。file を読む側が見る `TermCommit` である。 -/
def readTerm (b : AtomicByteBufferInt) (pos : Nat) : Option TermCommit :=
  TermCommit.mk <$> term b pos <*> version b pos <*> msgType b pos <*> server b pos <*> leader b pos <*>
    committed b pos <*> startTime b pos <*> committedTimestamp b pos <*> fileId b pos <*>
    filePositionOffset b pos <*> maxMessageId b pos <*> lengthOfCommit b pos

end CommitFile

/-! ## field の書き込みの列

`save_term` を、型と offset と値の組の列を順に書くものとして見る。列の中の範囲が互いに重ならなければ、
どの field も最後に書いた値を読み、どの範囲にも入らない byte は変わらない。
-/

/-- 一つの field の書き込み：型、record の中の offset、値。 -/
structure FieldWrite where
  kind : NumKind
  offset : Nat
  val : kind.Val

/-- 書き込みの範囲：offset と幅。 -/
def FieldWrite.span (w : FieldWrite) : Nat × Nat := (w.offset, w.kind.width)

/-- 二つの範囲が重ならない。 -/
def SpanDisjoint (s s' : Nat × Nat) : Prop := s.1 + s.2 ≤ s'.1 ∨ s'.1 + s'.2 ≤ s.1

instance : DecidableRel SpanDisjoint := fun _ _ => inferInstanceAs (Decidable (_ ∨ _))

/-- 位置 `i` が、位置 `pos` の record の範囲 `s` の中にある。 -/
def Covers (pos : Nat) (s : Nat × Nat) (i : Nat) : Prop := s.1 + pos ≤ i ∧ i < s.1 + pos + s.2

/-- 書き込みを順に行う。どれかが panic すればそこで panic する。 -/
def putAll (b : AtomicByteBufferInt) (pos : Nat) : List FieldWrite → Option AtomicByteBufferInt
  | [] => some b
  | w :: ws => (CommitFile.setField w.kind w.offset b pos w.val).bind fun b' => putAll b' pos ws

section PutAll

variable {pos : Nat}

/-- 書き込みの列が値を返せば、どの範囲も buffer に収まり、どの範囲にも入らない byte は変わらない。 -/
theorem putAll_some : ∀ {ws : List FieldWrite} {b b' : AtomicByteBufferInt}, putAll b pos ws = some b' →
    b'.capacity = b.capacity ∧ (∀ s ∈ ws.map FieldWrite.span, s.1 + pos + s.2 ≤ b.capacity) ∧
      ∀ i, (∀ s ∈ ws.map FieldWrite.span, ¬Covers pos s i) → b'.buffer[i]? = b.buffer[i]?
  | [], _, _, h => by
    cases h; exact ⟨rfl, fun _ h => absurd h (List.not_mem_nil _), fun _ _ => rfl⟩
  | w :: ws, b, b', h => by
    obtain ⟨b₁, h₁, h⟩ := Option.bind_eq_some.1 h
    obtain ⟨hp, hc₁, -⟩ := w.kind.put_some h₁
    obtain ⟨hc, hfit, hfr⟩ := putAll_some h
    simp only [List.map_cons, List.forall_mem_cons]
    refine ⟨hc.trans hc₁, ⟨hp, fun s hs => hc₁ ▸ hfit s hs⟩, fun i hi => ?_⟩
    rw [hfr i hi.2, w.kind.getElem?_put h₁ hi.1]

/-- どの範囲も buffer に収まれば、書き込みの列は panic しない。 -/
theorem putAll_of_le : ∀ {ws : List FieldWrite} {b : AtomicByteBufferInt},
    (∀ s ∈ ws.map FieldWrite.span, s.1 + pos + s.2 ≤ b.capacity) → ∃ b', putAll b pos ws = some b'
  | [], b, _ => ⟨b, rfl⟩
  | w :: ws, b, h => by
    simp only [List.map_cons, List.forall_mem_cons] at h
    obtain ⟨b₁, h₁, hc₁, -⟩ := w.kind.put_of_le b (p := w.offset + pos) w.val h.1
    obtain ⟨b', h'⟩ := putAll_of_le (b := b₁) fun s hs => hc₁ ▸ h.2 s hs
    exact ⟨b', by rw [putAll, CommitFile.setField, h₁, Option.some_bind, h']⟩

/-- 範囲が互いに重ならない書き込みの列の後、どの field も書いた値を読む。 -/
theorem putAll_get : ∀ {ws : List FieldWrite} {b b' : AtomicByteBufferInt},
    (ws.map FieldWrite.span).Pairwise SpanDisjoint → putAll b pos ws = some b' →
      ∀ w ∈ ws, w.kind.get b' (w.offset + pos) = some w.val
  | [], _, _, _, _ => fun _ h => absurd h (List.not_mem_nil _)
  | w :: ws, b, b', hd, h => by
    obtain ⟨b₁, h₁, h⟩ := Option.bind_eq_some.1 h
    rw [List.map_cons, List.pairwise_cons] at hd
    obtain ⟨hc, -, hfr⟩ := putAll_some h
    have hsame : ∀ i, w.offset + pos ≤ i → i < w.offset + pos + w.kind.width →
        b'.buffer[i]? = b₁.buffer[i]? := fun i hi₁ hi₂ => hfr i fun s hs hcov => by
      have := hd.1 s hs
      simp only [SpanDisjoint, FieldWrite.span, Covers] at this hcov
      omega
    refine List.forall_mem_cons.2 ⟨?_, putAll_get hd.2 h⟩
    rw [w.kind.get_congr_of_getElem? hc hsame]
    exact w.kind.get_put_self h₁

end PutAll

/-! ## `save_term` の往復 -/

/-- `save_term` が書く field の列。`committed` は入らない。 -/
def TermCommit.writes (t : TermCommit) : List FieldWrite :=
  [⟨.u64, TERM_ID_OFFSET, t.termId⟩, ⟨.u16, VERSION_OFFSET, t.version⟩, ⟨.u16, TYPE_OFFSET, t.typeId⟩,
    ⟨.u32, SERVER_OFFSET, t.serverId⟩, ⟨.u32, LEADER_OFFSET, t.leaderId⟩,
    ⟨.u64, START_TIMESTAMP, t.timestamp⟩, ⟨.u64, COMMITTED_TIMESTAMP, t.committedTimestamp⟩,
    ⟨.u32, FILE_ID, t.fileId⟩, ⟨.u64, FILE_POSITION_OFFSET, t.filePositionOffset⟩,
    ⟨.u64, MAX_MESSAGE_ID, t.fileMaxMessageId⟩, ⟨.u32, LENGTH_OF_COMMIT, t.length⟩]

section SaveTerm

open CommitFile

/-- `save_term` は `TermCommit.writes` を順に書く。 -/
theorem saveTerm_eq_putAll (b : AtomicByteBufferInt) (pos : Nat) (t : TermCommit) :
    saveTerm b pos t = putAll b pos t.writes := by
  simp only [saveTerm, putAll, TermCommit.writes, Option.bind_eq_bind, Option.bind_assoc, Option.bind_some,
    setTerm, setVersion, setMsgType, setServer, setLeader, setStartTime, setCommittedTimestamp, setFileId,
    setFilePositionOffset, setMaxMessageId, setLengthOfCommit]

/-- `save_term` が書く範囲。 -/
theorem TermCommit.map_span_writes (t : TermCommit) :
    t.writes.map FieldWrite.span =
      [(0, 8), (8, 2), (10, 2), (12, 4), (16, 4), (24, 8), (32, 8), (40, 4), (44, 8), (52, 8), (60, 4)] :=
  rfl

theorem TermCommit.writes_pairwise (t : TermCommit) : (t.writes.map FieldWrite.span).Pairwise SpanDisjoint := by
  rw [t.map_span_writes]; decide

/-- `committed` の範囲 `[20, 22)` は、`save_term` が書くどの範囲とも重ならない。 -/
theorem TermCommit.committed_disjoint (t : TermCommit) :
    ∀ s ∈ t.writes.map FieldWrite.span, SpanDisjoint (COMMITTED, NumKind.u16.width) s := by
  rw [t.map_span_writes]; decide

/-- どの範囲も収まるのは、record `[pos, pos + 64)` が収まるときである。 -/
theorem TermCommit.writes_fit_iff (t : TermCommit) (pos cap : Nat) :
    (∀ s ∈ t.writes.map FieldWrite.span, s.1 + pos + s.2 ≤ cap) ↔ pos + 64 ≤ cap := by
  rw [t.map_span_writes]
  simp only [List.forall_mem_cons, List.mem_nil_iff, false_implies, implies_true, and_true]
  omega

/-- どの範囲にも入らないのは、record の外と `[pos + 20, pos + 24)` の byte である。 -/
theorem TermCommit.not_covers (t : TermCommit) {pos i : Nat}
    (hi : i < pos ∨ pos + 64 ≤ i ∨ (pos + COMMITTED ≤ i ∧ i < pos + START_TIMESTAMP)) :
    ∀ s ∈ t.writes.map FieldWrite.span, ¬Covers pos s i := by
  rw [t.map_span_writes]
  simp only [COMMITTED, START_TIMESTAMP] at hi
  simp only [List.forall_mem_cons, List.mem_nil_iff, false_implies, implies_true, and_true, Covers]
  omega

/-- `save_term` の列の field がどれも書いた値を読み、`committed` が `c` を読めば、record は
`t` の `committed` を `c` にしたものである。 -/
theorem readTerm_eq {b : AtomicByteBufferInt} {pos : Nat} {t : TermCommit} {c : UInt16}
    (h : ∀ w ∈ t.writes, w.kind.get b (w.offset + pos) = some w.val) (hc : committed b pos = some c) :
    readTerm b pos = some { t with committed := c } := by
  simp only [TermCommit.writes, List.forall_mem_cons, List.mem_nil_iff, false_implies, implies_true, and_true] at h
  simp only [committed, getField] at hc
  simp only [readTerm, term, version, msgType, server, leader, committed, startTime, committedTimestamp,
    fileId, filePositionOffset, maxMessageId, lengthOfCommit, getField, h, hc, Option.bind_eq_bind,
    Option.some_bind]
  rfl

theorem saveTerm_isSome_iff (b : AtomicByteBufferInt) (pos : Nat) (t : TermCommit) :
    (saveTerm b pos t).isSome ↔ pos + 64 ≤ b.capacity := by
  rw [saveTerm_eq_putAll, ← t.writes_fit_iff, Option.isSome_iff_exists]
  exact ⟨fun ⟨_, hb'⟩ => (putAll_some hb').2.1, putAll_of_le⟩

/-- `save_term` の後、十一の field は書いた値を読み、`committed` を含む書かない byte は変わらない。 -/
theorem saveTerm_some {b b' : AtomicByteBufferInt} {pos : Nat} {t : TermCommit}
    (h : saveTerm b pos t = some b') :
    b'.capacity = b.capacity ∧ pos + 64 ≤ b.capacity ∧
      (∀ w ∈ t.writes, w.kind.get b' (w.offset + pos) = some w.val) ∧
      ∀ i, i < pos ∨ pos + 64 ≤ i ∨ (pos + COMMITTED ≤ i ∧ i < pos + START_TIMESTAMP) →
        b'.buffer[i]? = b.buffer[i]? := by
  rw [saveTerm_eq_putAll] at h
  obtain ⟨hc, hfit, hfr⟩ := putAll_some h
  exact ⟨hc, (t.writes_fit_iff pos _).1 hfit, putAll_get t.writes_pairwise h,
    fun i hi => hfr i (t.not_covers hi)⟩

/-- 範囲 `(o, k.width)` への setter は、重ならない範囲 `(o', k'.width)` の field の読みを変えない。 -/
theorem get_setField_of_disjoint {k k' : NumKind} {o o' pos : Nat} {v : k.Val} {b b' : AtomicByteBufferInt}
    (h : setField k o b pos v = some b') (hd : SpanDisjoint (o, k.width) (o', k'.width)) :
    k'.get b' (o' + pos) = k'.get b (o' + pos) := by
  obtain ⟨-, hc, -⟩ := k.put_some h
  exact k'.get_congr_of_getElem? hc fun i h₁ h₂ => k.getElem?_put h (by simp only [SpanDisjoint] at hd; omega)

/-- record が収まれば `committed` は読める。 -/
theorem committed_of_le {b : AtomicByteBufferInt} {pos : Nat} (h : pos + 64 ≤ b.capacity) :
    ∃ c, committed b pos = some c := by
  have hp : COMMITTED + pos + NumKind.u16.width ≤ b.capacity := show 20 + pos + 2 ≤ b.capacity by omega
  exact ⟨_, by rw [committed, getField, NumKind.get_eq_ite, if_pos hp]⟩

/-- `committed` は `[pos + 20, pos + 22)` の byte だけを見る。 -/
theorem committed_congr {b b' : AtomicByteBufferInt} {pos : Nat} (hc : b'.capacity = b.capacity)
    (hfr : ∀ i, pos + COMMITTED ≤ i ∧ i < pos + START_TIMESTAMP → b'.buffer[i]? = b.buffer[i]?) :
    committed b' pos = committed b pos :=
  NumKind.u16.get_congr_of_getElem? hc fun i h₁ h₂ => hfr i <| by
    have : i < COMMITTED + pos + 2 := h₂
    simp only [COMMITTED, START_TIMESTAMP] at *
    omega

/-- record が収まれば `set_committed` は panic せず、`committed` を 1 にし、`save_term` が書くどの
field の読みも変えない。 -/
theorem setCommitted_of_le {b : AtomicByteBufferInt} {pos : Nat} (t : TermCommit) (h : pos + 64 ≤ b.capacity) :
    ∃ b', setCommitted b pos = some b' ∧ committed b' pos = some 1 ∧
      ∀ w ∈ t.writes, w.kind.get b' (w.offset + pos) = w.kind.get b (w.offset + pos) := by
  obtain ⟨b', h', -, -⟩ :=
    NumKind.u16.put_of_le b (p := COMMITTED + pos) (1 : UInt16) (show 20 + pos + 2 ≤ b.capacity by omega)
  exact ⟨b', h', NumKind.u16.get_put_self h',
    fun w hw => get_setField_of_disjoint h' (t.committed_disjoint _ (List.mem_map_of_mem _ hw))⟩

/--
**`save_term` は record を往復させるが、`committed` は書かない。**
`save_term` が panic しないのは、record `[pos, pos + 64)` が buffer に収まるときだけである。そのとき
record を getter で読み戻すと、`committed` 以外の十一の field は書いた値を返し、`committed` は書く前の値を
返す。record の外と、`committed` と使われない 2 byte（`[pos + 20, pos + 24)`）は変わらない。
続けて `set_committed` を呼べば、読み戻す record は、`t.committed` によらず `committed` が 1 の `t` である。
-/
theorem saveTerm_roundTrip (b : AtomicByteBufferInt) (pos : Nat) (t : TermCommit) :
    ((saveTerm b pos t).isSome ↔ pos + 64 ≤ b.capacity) ∧
    ∀ b', saveTerm b pos t = some b' →
      b'.capacity = b.capacity ∧
      (∃ c, committed b pos = some c ∧ readTerm b' pos = some { t with committed := c }) ∧
      (∀ i, i < pos ∨ pos + 64 ≤ i ∨ (pos + COMMITTED ≤ i ∧ i < pos + START_TIMESTAMP) →
        b'.buffer[i]? = b.buffer[i]?) ∧
      ∃ b'', setCommitted b' pos = some b'' ∧ readTerm b'' pos = some { t with committed := 1 } := by
  refine ⟨saveTerm_isSome_iff b pos t, fun b' h => ?_⟩
  obtain ⟨hc, hfit, hget, hfr⟩ := saveTerm_some h
  obtain ⟨c, hc₀⟩ := committed_of_le hfit
  have hkept : committed b' pos = some c :=
    (committed_congr hc fun i hi => hfr i (.inr (.inr hi))).trans hc₀
  obtain ⟨b'', h'', hone, hsame⟩ := setCommitted_of_le t (hc ▸ hfit)
  exact ⟨hc, ⟨c, hc₀, readTerm_eq hget hkept⟩, hfr, b'', h'',
    readTerm_eq (fun w hw => (hsame w hw).trans (hget w hw)) hone⟩

end SaveTerm

/-! ## `add_commit_file` -/

/-- `CommitFileInfo`。 -/
structure CommitFileInfo where
  path : List Char
  fileId : UInt32
  termStart : UInt64
  messageId : UInt64
deriving DecidableEq

/--
`FileCollection::add_commit_file`：`commit_files` と、返す `io::Result<()>`。

file 名から id が読めなければ何もしない。file を開いて map するところ（`OpenOptions::open` と
`MemoryMappedInt::open`）の結果は `mapped` として外から与え、どちらかの誤りなら `?` で抜ける。
map した buffer の位置 0 の record から term id、max message id、開始時刻をこの順に読み、
開始時刻が 0 でなければ file を末尾に足す。並べ直さない。getter が buffer の外を読めば panic する。
-/
def addCommitFile (commitFiles : List CommitFileInfo) (pathStr : List Char)
    (mapped : Except IoError AtomicByteBufferInt) : Option (List CommitFileInfo × Except IoError Unit) :=
  match readFileId pathStr with
  | some id =>
    match mapped with
    | .error e => some (commitFiles, .error e)
    | .ok buffer => do
      let termId ← CommitFile.term buffer 0
      let messageId ← CommitFile.maxMessageId buffer 0
      let time ← CommitFile.startTime buffer 0
      if time > 0 then some (commitFiles ++ [⟨pathStr, id, termId, messageId⟩], .ok ())
      else some (commitFiles, .ok ())
  | none => some (commitFiles, .ok ())

/--
**`add_commit_file` は、`save_term` が先頭に書いた term を登録する。**
位置 0 の record を `save_term` で書いた commit file を、id が読める file 名で渡すと、`add_commit_file` は
panic せずに `Ok(())` を返す。開始時刻 `timestamp` が 0 でなければ `(file 名, id, term_id, file_max_message_id)`
を `commit_files` の末尾に足し、0 なら一覧を変えない。
-/
theorem addCommitFile_saveTerm (commitFiles : List CommitFileInfo) {pathStr : List Char} {id : UInt32}
    (hid : readFileId pathStr = some id) {b b' : AtomicByteBufferInt} (t : TermCommit)
    (hsave : CommitFile.saveTerm b 0 t = some b') :
    addCommitFile commitFiles pathStr (.ok b') =
      some (if 0 < t.timestamp then commitFiles ++ [⟨pathStr, id, t.termId, t.fileMaxMessageId⟩]
        else commitFiles, .ok ()) := by
  obtain ⟨-, -, hget, -⟩ := saveTerm_some hsave
  simp only [TermCommit.writes, List.forall_mem_cons, List.mem_nil_iff, false_implies, implies_true,
    and_true] at hget
  obtain ⟨hterm, -, -, -, -, htime, -, -, -, hmax, -⟩ := hget
  simp only [addCommitFile, hid, CommitFile.term, CommitFile.maxMessageId, CommitFile.startTime,
    CommitFile.getField, hterm, hmax, htime, Option.bind_eq_bind, Option.some_bind]
  by_cases h0 : 0 < t.timestamp <;> simp [h0]

/-- term 3、開始時刻 5、max message id 9 の term。 -/
def sampleTerm : TermCommit := ⟨3, 1, 0, 1, 1, 0, 5, 0, 1, 0, 9, 64⟩

/-- 64 byte の buffer の位置 0 に `sampleTerm` を書いたもの。 -/
def sampleRecord : AtomicByteBufferInt :=
  (CommitFile.saveTerm (AtomicByteBufferInt.new 64) 0 sampleTerm).getD (AtomicByteBufferInt.new 64)

theorem sampleRecord_registered :
    readFileId "test.events.1".toList = some 1 ∧
      CommitFile.saveTerm (AtomicByteBufferInt.new 64) 0 sampleTerm = some sampleRecord ∧
      addCommitFile [] "test.events.1".toList (.ok sampleRecord) =
        some ([⟨"test.events.1".toList, 1, 3, 9⟩], .ok ()) :=
  have hid : readFileId "test.events.1".toList = some 1 := rfl
  have hsave : CommitFile.saveTerm (AtomicByteBufferInt.new 64) 0 sampleTerm = some sampleRecord := rfl
  ⟨hid, hsave, addCommitFile_saveTerm [] hid sampleTerm hsave⟩

end RustCommon.Raft
