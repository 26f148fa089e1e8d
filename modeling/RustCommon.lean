import RustCommon.Basic
import RustCommon.Queue.Ring
import RustCommon.Queue.Spsc
import RustCommon.Queue.SpscSafety
import RustCommon.Queue.SpscFifo
import RustCommon.Queue.Mpsc
import RustCommon.Queue.MpscFifo
import RustCommon.Queue.MpscSafety
import RustCommon.Queue.Capacity
import RustCommon.Queue.Progress
import RustCommon.Map.Mrsw
import RustCommon.Map.MrswSeq
import RustCommon.Map.MrswRuns
import RustCommon.Map.MrswPrefix
import RustCommon.Buffer.AtomicBuffer
import RustCommon.Buffer.Fields
import RustCommon.Raft.FileNames
import RustCommon.Raft.MessageFiles
import RustCommon.Raft.CommitFile
import RustCommon.Raft.FileCollection
import RustCommon.Raft.IteratorStart
