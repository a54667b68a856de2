import Confos.Tdx.Pe
import Confos.Tdx.Replay

/-!
# `tdx-measure verify`

The command replays an event log against a TDREPORT and, given a UKI, prints
how the log's RTMR[2] events compare with the digests predicted from it.  What
a successful run prints is its value here.  The comparison with the UKI is
printed only: the verdict rests on the registers.
-/

namespace Confos.Tdx.Verify

open Confos.Library.ByteStrings
open Confos.Library.Fallible
open Confos.Tdx.Ccel
open Confos.Tdx.CcelRecords
open Confos.Tdx.CcelRoundTrip
open Confos.Tdx.Rtmr
open Confos.Tdx.Replay
open Confos.Tdx.Pe

/-! ## The command -/

section

variable (sha384 : Bytes → Block 48)

end

/-! ## Two logs for one UKI -/

end Confos.Tdx.Verify
