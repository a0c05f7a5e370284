import AiosKernel.TensorMm.ModelFree
import AiosKernel.MemoryFabric.Access
import AiosKernel.Syscall.Reuse
import AiosKernel.Syscall.Shapes
import AiosKernel.Heap.Frees
import AiosKernel.Sched.Accounts
import AiosKernel.Sched.Fairness
import AiosKernel.Resource.Runs
import AiosKernel.Process.Ownership
import AiosKernel.Replay.Total
import AiosKernel.Replay.Stutter
import AiosKernel.Replay.Endings
import AiosKernel.Nodebit.Summary
import AiosKernel.Autonomy.Rollback
import AiosKernel.Slm.Learning
import AiosKernel.Slm.Evaluate
import AiosKernel.KernelRoom.SourceBinding
import AiosKernel.Time
import AiosKernel.Pci
import AiosKernel.Acpi
import AiosKernel.Keyboard
import AiosKernel.AiPressure
import AiosKernel.PlatformProbe
import AiosKernel.LibString
