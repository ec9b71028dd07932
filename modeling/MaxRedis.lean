import MaxRedis.Kv.Expiry
import MaxRedis.Kv.Memory
import MaxRedis.Kv.Results
import MaxRedis.Kv.StringSet
import MaxRedis.Raft.AcceptedAppend
import MaxRedis.Raft.ApplyOrder
import MaxRedis.Raft.CatchUp
import MaxRedis.Raft.CommitQuorum
import MaxRedis.Raft.ElectionTimer
import MaxRedis.Raft.Guards
import MaxRedis.Raft.Handover
import MaxRedis.Raft.JointElection
import MaxRedis.Raft.JointOrder
import MaxRedis.Raft.Lives
import MaxRedis.Raft.MetaJson
import MaxRedis.Raft.PeerProgress
import MaxRedis.Raft.ReadIndex
import MaxRedis.Raft.SnapshotLabels
import MaxRedis.Raft.VoteDisk
import MaxRedis.Rpc.Transport
import MaxRedis.Service.Acceptance
import MaxRedis.Service.Classic
import MaxRedis.Service.LogText
import MaxRedis.Service.Memcache
import MaxRedis.Service.Replies
import MaxRedis.Snapshot.Transfer
import MaxRedis.Storage.Predecessor
import MaxRedis.Storage.Replay
import MaxRedis.Storage.Scan
import MaxRedis.Storage.TruncationCrash
import MaxRedis.Storage.WalRecovery
import MaxRedis.Storage.WriteErrors
