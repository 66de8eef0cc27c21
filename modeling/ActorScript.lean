import ActorScript.Command.Source
import ActorScript.Main
import ActorScript.Match.Form
import ActorScript.Proofs.Context.Coherence
import ActorScript.Proofs.Grammar.Acceptance
import ActorScript.Proofs.Script.Lines
import ActorScript.Proofs.Token.RoundTrip
import ActorScript.Proofs.Context.Stopping
import ActorScript.Proofs.Context.Hearing
import ActorScript.Proofs.Stage.Delivery
import ActorScript.Proofs.Match.Depth
import ActorScript.Proofs.Command.Tokens
import ActorScript.Proofs.Command.Unambiguous
import ActorScript.Proofs.Token.Writing
import ActorScript.Proofs.Command.Source
import ActorScript.Proofs.Stage.Isolation
import ActorScript.Proofs.Stage.Solvency
import ActorScript.Proofs.Context.Progress
import ActorScript.Proofs.Context.Completion
import ActorScript.Proofs.Token.Span
import ActorScript.Proofs.Project.Loading
import ActorScript.Proofs.Project.Rehearsal
import ActorScript.Proofs.Context.Arithmetic
import ActorScript.Proofs.Script.FirstError
import ActorScript.Proofs.Match.Starving
import ActorScript.Proofs.Grammar.Cut
import ActorScript.Proofs.Grammar.Overtaking
import ActorScript.Proofs.Match.Replacement
import ActorScript.Proofs.Grammar.Unfinished
import ActorScript.Proofs.Match.Rounds
import ActorScript.Proofs.Context.Spell
import ActorScript.Proofs.Context.Pushing
import ActorScript.Proofs.Context.Zapping
import ActorScript.Proofs.Context.Budget
import ActorScript.Proofs.Match.Blame
import ActorScript.Proofs.Grammar.Opening
import ActorScript.Proofs.Grammar.Alike
import ActorScript.Proofs.Grammar.Jump
import ActorScript.Proofs.Match.Choice
import ActorScript.Proofs.Token.Comments
import ActorScript.Proofs.Token.Below
import ActorScript.Proofs.Script.Pointing
import ActorScript.Proofs.Sense.Turning
import ActorScript.Proofs.Table.Total
import ActorScript.Proofs.Context.Touch
import ActorScript.Proofs.Context.Passage
import ActorScript.Proofs.Recorder.Tiles
import ActorScript.Proofs.Sense.Obstacle
import ActorScript.Proofs.Context.Holding
import ActorScript.Proofs.Sense.Absence
import ActorScript.Proofs.Project.Continuation
import ActorScript.Proofs.Match.Unbounded
import ActorScript.Proofs.Match.Ending
import ActorScript.Proofs.Match.Nesting
import ActorScript.Proofs.Grammar.Nesting
import ActorScript.Proofs.Grammar.Finishing
import ActorScript.Proofs.Listing.Term
import ActorScript.Proofs.Listing.Command
import ActorScript.Proofs.Listing.Lossless
