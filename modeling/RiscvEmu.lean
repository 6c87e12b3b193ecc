import RiscvEmu.Foundation.Iteration
import RiscvEmu.Foundation.Probing
import RiscvEmu.Interpret
import RiscvEmu.CacheIntegrity
import RiscvEmu.Break
import RiscvEmu.InterpretRv64i
import RiscvEmu.BlockOutcome
import RiscvEmu.BlockSimulation
import RiscvEmu.MulHigh
import RiscvEmu.Division
import RiscvEmu.BrkSafety
import RiscvEmu.RegisterTracing
import RiscvEmu.Linking
import RiscvEmu.ExitFields
import RiscvEmu.DispatchRefines
import RiscvEmu.HotCounting
import RiscvEmu.FloatClassify
import RiscvEmu.VisitedSet
import RiscvEmu.GenblockBounds
import RiscvEmu.NanBoxing
import RiscvEmu.Str
import RiscvEmu.InterpretCompressed
import RiscvEmu.JumpToZero
import RiscvEmu.FenceI
import RiscvEmu.Tiering
import RiscvEmu.Foundation.Stuttering
import RiscvEmu.Transparency
import RiscvEmu.ProcessMemory
import RiscvEmu.Footprint
import RiscvEmu.Foundation.Printing
import RiscvEmu.Foundation.Scanning
import RiscvEmu.CLexing
import RiscvEmu.CFolding
import RiscvEmu.CodegenText
import RiscvEmu.CodegenFaithful
import RiscvEmu.GenblockText
import RiscvEmu.PrintedBlock
