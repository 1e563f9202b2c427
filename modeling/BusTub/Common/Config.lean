import Mathlib.Data.Int.ConditionallyCompleteOrder

/-!
# Configuration

The identifier types and constants of `include/common/config.h` that the models
use.  Identifiers are unbounded integers here: nothing below depends on where
`int32_t` ends.
-/

namespace BusTub

/-- `frame_id_t`. -/
abbrev FrameId := ℤ

/-- `page_id_t`. -/
abbrev PageId := ℤ

/-- `INVALID_PAGE_ID`. -/
def invalidPageId : PageId := -1

/-- `HEADER_PAGE_ID`. -/
def headerPageId : PageId := 0

/-- `BUSTUB_PAGE_SIZE`. -/
def bustubPageSize : ℕ := 4096

end BusTub
