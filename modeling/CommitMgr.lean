import CommitMgr.Api
import CommitMgr.Processor
import CommitMgr.Batcher
import CommitMgr.Compaction
import CommitMgr.Shutdown
import CommitMgr.CommitProcessor
import CommitMgr.PreCommitProcessor
import CommitMgr.CompactAllocated
