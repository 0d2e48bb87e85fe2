import Treatise.Main
import Treatise.Tool.FileTree
import Treatise.Proofs.Nesting
import Treatise.Proofs.Render.Elements
import Treatise.Proofs.Render.Links
import Treatise.Proofs.Render.WellFormed
import Treatise.Proofs.Numbering.Sites
import Treatise.Proofs.Numbering.Rerun
import Treatise.Proofs.Numbering.Targets
import Treatise.Proofs.Numbering.Siblings
import Treatise.Proofs.Numbering.Outline
import Treatise.Proofs.Markdown.HeadingLevels
import Treatise.Proofs.Tree.Frames
import Treatise.Proofs.Numbering.Statements
import Treatise.Proofs.Numbering.Counters
import Treatise.Proofs.Tree.Standing
import Treatise.Proofs.Numbering.Gaps
import Treatise.Proofs.Numbering.Labels
import Treatise.Proofs.Numbering.References
import Treatise.Proofs.Numbering.Anchors
import Treatise.Proofs.Numbering.Flattening
import Treatise.Proofs.Numbering.OwnWords
import Treatise.Proofs.Render.Typesetting
import Treatise.Proofs.Render.Environments
import Treatise.Proofs.SectionRanges
import Treatise.Proofs.Rejoining
import Treatise.Proofs.Chunk.Places
import Treatise.Proofs.Chunk.Fences
import Treatise.Proofs.Tool.TestRuns
import Treatise.Proofs.Tool.Precedence
import Treatise.Proofs.Abbreviation.Calls
import Treatise.Proofs.Abbreviation.Bodies
import Treatise.Proofs.Abbreviation.Definitions
import Treatise.Proofs.Openings
import Treatise.Proofs.Marks
import Treatise.Proofs.Issues
import Treatise.Proofs.Render.Escaping
import Treatise.Proofs.Render.Modes
import Treatise.Proofs.Render.Citations
import Treatise.Proofs.Tree.Folding
import Treatise.Proofs.Numbering.Referable
import Treatise.Proofs.LabelSpellings
import Treatise.Proofs.FrontMatter
import Treatise.Proofs.Tool.Selections
import Treatise.Proofs.Templates
import Treatise.Proofs.Tool.Expectations
