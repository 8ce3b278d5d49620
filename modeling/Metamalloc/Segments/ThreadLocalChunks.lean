import Metamalloc.Segments.PageRecycling

/-! The chunks of a thread-local segment of one size class. Other threads give chunks back
through the queue while its owner drains it. -/
namespace Metamalloc.Segments
open Library.Word64 Library.ByteMemory Library.LinkedList Pages

section
variable {recycling : PageRecyclingPolicy} {aligned : Bool} {sys sys' : System} {g g' : Ghost}
  {action : Action} {a : Nat}

end

def threeChunks : SegmentCreationParameters :=
  { logicalPageSize := 4096, logicalPageCount := 2, sizeClass := 1344, pageRecyclingThreshold := 2 }

/-- Of five chunks one stays with its client, one is on its way back and three were pushed; the
owner has popped two of these, and frees the second one. -/
def fiveChunksOut : List Action :=
  (List.replicate 5 (request 1344)).flatten ++ giveBack ⟨8256, 1344⟩ ++ giveBack ⟨9600, 1344⟩ ++
    giveBack ⟨13696, 1344⟩ ++ [.callDeallocate ⟨10944, 1344⟩, .drain (.allocate 1344), .pop, .pop]

end Metamalloc.Segments
