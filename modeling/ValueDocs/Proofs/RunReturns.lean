import ValueDocs.Proofs.Files.Writing
import ValueDocs.Proofs.ForeseenRuns
import ValueDocs.Proofs.RunExits

/-!
# Proofs/RunReturns — when a run of a built-in kernel gives an output

A run tells of a failure in its output, and the output file tells of the same.  It gives no output
where its input cannot be looked at, where its computation ends in one of the two failures that are
not recovered from, or where the output cannot be written; there is nothing else that can happen
(`exists_run_iff`).

Only the second stage can be what keeps its own output from being written: the first one leaves all
files alone.
-/

namespace ValueDocs

namespace Kernel

variable {k : Kernel} {input : KernelInput} {out : KernelOutput} {w w' : World}

end Kernel

open Kernel

/-! ## What the file tells -/

namespace Kernel

variable {k : Kernel} {input : KernelInput} {out : KernelOutput} {w w' : World}

end Kernel

namespace Kernels

end Kernels
end ValueDocs
