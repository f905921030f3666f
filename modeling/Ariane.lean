import Ariane.AbstractCommands
import Ariane.Alu
import Ariane.AmoAccess
import Ariane.AmoOperation
import Ariane.AmoReservation
import Ariane.AmoRun
import Ariane.Axi2mem
import Ariane.Axi2memBursts
import Ariane.Axi2memServe
import Ariane.AxiAdapter
import Ariane.AxiAdapter2Bench
import Ariane.AxiAdapter2Bursts
import Ariane.AxiAdapterAnswers
import Ariane.AxiAdapterLimit
import Ariane.AxiAdapterLines
import Ariane.AxiAdapterLog
import Ariane.AxiAdapterRead
import Ariane.AxiAdapterWrite
import Ariane.AxiLite
import Ariane.AxiMemory
import Ariane.BranchUnit
import Ariane.CacheAnswers
import Ariane.CachePorts
import Ariane.CacheProgress
import Ariane.CacheRequests
import Ariane.CacheReturns
import Ariane.CacheSlave
import Ariane.CacheTraffic
import Ariane.Cdc2phase
import Ariane.CdcFifoGray
import Ariane.Clint
import Ariane.CommandCode
import Ariane.CompressedExpansion
import Ariane.CsrWriteRead
import Ariane.DataArray
import Ariane.DebugEntry
import Ariane.Decoder
import Ariane.DecoderIsa
import Ariane.DecoderOpcodes
import Ariane.DecoderPrivileged
import Ariane.DmSba
import Ariane.DmSbaAccess
import Ariane.DmSbaLaw
import Ariane.DmSbaRun
import Ariane.DmSbaStep
import Ariane.DmaBursts
import Ariane.DmaTransfer
import Ariane.DmiAnswers
import Ariane.DualCommit
import Ariane.ExStage
import Ariane.Execution
import Ariane.FaultAddress
import Ariane.FaultingCsr
import Ariane.FetchCredits
import Ariane.FluPort
import Ariane.FlushAck
import Ariane.InterruptSelection
import Ariane.JtagLock
import Ariane.LineOnce
import Ariane.LoadAnswers
import Ariane.LoadProgress
import Ariane.LoadResult
import Ariane.LsuQueue
import Ariane.MissBus
import Ariane.MissBusStages
import Ariane.MissBusStep
import Ariane.MmuCoherence
import Ariane.MmuPermissions
import Ariane.MonitorAutomaton
import Ariane.MopWrapper
import Ariane.Mult
import Ariane.MultResult
import Ariane.MultUnit
import Ariane.OperandForwarding
import Ariane.PlicAccess
import Ariane.PlicNumbering
import Ariane.PlicTarget
import Ariane.PreciseTrap
import Ariane.PredictedStream
import Ariane.PtwWalk
import Ariane.RealignedStream
import Ariane.RecordReplay
import Ariane.RedirectionTransfer
import Ariane.Rtl.Gray
import Ariane.Rtl.GrayPointer
import Ariane.Rtl.Tournament
import Ariane.RunControl
import Ariane.Rv64Exec
import Ariane.Rv64Isa
import Ariane.ScoreboardFifo
import Ariane.SerdivResult
import Ariane.Sha256
import Ariane.Sha256Core
import Ariane.SingleStep
import Ariane.StoreBufferRefinement
import Ariane.StoreCommit
import Ariane.TlbVictim
import Ariane.TrapReturn
import Ariane.TrapVector
import Ariane.WriteBufferHistory
import Ariane.WriteBufferTags
