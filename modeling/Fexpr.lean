import Fexpr.Host
import Fexpr.Main
import Fexpr.Proofs.Reader.RoundTrip
import Fexpr.Proofs.Confinement
import Fexpr.Proofs.CallByName
import Fexpr.Proofs.Containment
import Fexpr.Proofs.Noninterference
import Fexpr.Proofs.Reader.Grammar
import Fexpr.Proofs.Forwarding
import Fexpr.Proofs.Forwarding.Rest
import Fexpr.Proofs.Runners
import Fexpr.Proofs.ReadBack
import Fexpr.Proofs.Sandbox
import Fexpr.Proofs.Tracing
import Fexpr.Proofs.Depth
import Fexpr.Proofs.Reader.Faults
import Fexpr.Proofs.Reader.Lines
import Fexpr.Proofs.Correspondence.Logging
import Fexpr.Proofs.Files
import Fexpr.Proofs.Relocation.Program
import Fexpr.Proofs.Reset
import Fexpr.Proofs.Token.Tiling
import Fexpr.Proofs.Binding
import Fexpr.Proofs.ParamList
import Fexpr.Proofs.Application
import Fexpr.Proofs.Reader.Layout
import Fexpr.Proofs.EmptyList
import Fexpr.Proofs.Store.Resolution
import Fexpr.Proofs.ParamList.Spelling
import Fexpr.Proofs.Operands
import Fexpr.Proofs.Division
import Fexpr.Proofs.Loop
import Fexpr.Proofs.Descent
import Fexpr.Proofs.Equality
