import RustyRuntime.Journal.Basic
import RustyRuntime.Checkpoint.Delta

/-!
# The recorder of a run

`Recorder` of `executor.rs`: the journal, the clock and the id source of a run, and the
provenance stamped into its checkpoints. Clock and id source are streams: `clock n` is what
the `n`-th read of the run returns, whichever clock it goes to, and `rng n` is the `n`-th id.
What the nodes read in between only shifts the values of the stream.
-/

namespace RustyRuntime

structure Recorder where
  journal : Journal
  clock : Nat → Int
  reads : Nat := 0
  rng : Nat → String
  draws : Nat := 0
  graphVersion : String
  graphHash : String
  policyVersion : PolicyVersion
  manifest : Option Json

namespace Recorder

/-- `Recorder::record`: the id of the event, and the recorder with it. -/
def record (codec : Codec) (r : Recorder) (draft : EventDraft) : String × Recorder :=
  let (id, journal) := r.journal.record codec draft (r.clock r.reads)
  (id, { r with journal, reads := r.reads + 1 })

/-- `Clock::now_ms` on a timestamp in nanoseconds. -/
def millis (timestamp : Int) : UInt64 := UInt64.ofNat (timestamp / 1000000).toNat

/-- `Recorder::mint_checkpoint`: one id and two clock reads. -/
def mintCheckpoint (r : Recorder) (threadId : String) (step : Nat) (state : State)
    (nextNodes : List String) (inbox : Option InboxSnapshot) : Checkpoint × Recorder :=
  ({ id := r.rng r.draws, threadId, step, state, nextNodes, createdAt := r.clock r.reads
     header :=
      { graphVersion := r.graphVersion, graphHash := r.graphHash
        policyVersion := r.policyVersion, logicalClock := millis (r.clock (r.reads + 1))
        manifest := r.manifest, inbox }
     journalRef := some r.journal.headRef },
   { r with reads := r.reads + 2, draws := r.draws + 1 })

variable (codec : Codec) (r : Recorder) (threadId : String) (step : Nat) (state : State)
  (nextNodes : List String) (inbox : Option InboxSnapshot)

end Recorder

end RustyRuntime
