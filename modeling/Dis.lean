import Dis.Log.Line
import Dis.Proofs.Alignment
import Dis.Proofs.Arrangement
import Dis.Proofs.Composition
import Dis.Proofs.Family
import Dis.Proofs.Filter
import Dis.Proofs.FixedPoint
import Dis.Proofs.FlagWord
import Dis.Proofs.Relay
import Dis.Proofs.SizeGate
import Dis.Proofs.Timestamp
import Dis.Wire.Spelling
