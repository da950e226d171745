import Blake2F.Engine
import Blake2F.Engine.Flat
import Blake2F.PayloadBuffer.History
import Blake2F.Main
import Blake2F.Proofs.Engine.Flat
import Blake2F.Proofs.Engine.Lanes
import Blake2F.Proofs.Layout
import Blake2F.Proofs.Call
import Blake2F.Proofs.Intake
import Blake2F.Proofs.PayloadBuffer
import Blake2F.Proofs.Codec
import Blake2F.Proofs.Pieces
import Blake2F.Proofs.Wire
import Blake2F.Proofs.Policies
import Blake2F.Proofs.Command.Outcome
import Blake2F.Proofs.Command.Verdict
import Blake2F.Proofs.Command.Printed
import Blake2F.Proofs.Engine.Message
import Blake2F.Proofs.Engine.Permutation
import Blake2F.Proofs.Engine.Cycle
import Blake2F.Proofs.Access
