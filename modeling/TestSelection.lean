import TestSelection.Bench
import TestSelection.Chain
import TestSelection.Chain.Reading
import TestSelection.Clause
import TestSelection.Config
import TestSelection.Console
import TestSelection.Criterion
import TestSelection.Criterion.Checked
import TestSelection.Document
import TestSelection.FilterError
import TestSelection.Json
import TestSelection.Json.Reader
import TestSelection.Json.Token
import TestSelection.Json.Written
import TestSelection.Kind
import TestSelection.Main
import TestSelection.Markup.Element
import TestSelection.Markup.Entity
import TestSelection.Markup.ParseError
import TestSelection.Markup.Scan
import TestSelection.Markup.Token
import TestSelection.Node
import TestSelection.Presets
import TestSelection.Proofs.Spelling
import TestSelection.Results
import TestSelection.Script
import TestSelection.Script.Word
import TestSelection.Selection
import TestSelection.Selection.OfElement
import TestSelection.Sequence
import TestSelection.Text.Basic
import TestSelection.Text.CodeRanges
import TestSelection.Text.Letters
import TestSelection.Text.Quoted
import TestSelection.Proofs.Fluent
import TestSelection.Proofs.Reading
import TestSelection.Proofs.Grouping
import TestSelection.Proofs.NestedText
import TestSelection.Proofs.Grammar
import TestSelection.Proofs.Meaning
import TestSelection.Proofs.Entity
import TestSelection.Proofs.Scanning
import TestSelection.Proofs.Items
import TestSelection.Proofs.Shown
import TestSelection.Proofs.Depth
import TestSelection.Proofs.RoundTrip
import TestSelection.Proofs.Evaluation
import TestSelection.Proofs.Arena
import TestSelection.Proofs.Phrases
import TestSelection.Proofs.Linking
import TestSelection.Proofs.Creation
import TestSelection.Proofs.Answers
import TestSelection.Proofs.Session
import TestSelection.Proofs.Unambiguous
import TestSelection.Proofs.Distinct
import TestSelection.Proofs.ScriptGrammar
import TestSelection.Proofs.Splitting
import TestSelection.Proofs.Arguments
import TestSelection.Proofs.Lossless
import TestSelection.Proofs.Ascent
import TestSelection.Proofs.Pieces
import TestSelection.Proofs.Nesting
import TestSelection.Proofs.ScriptDocuments
import TestSelection.Proofs.JsonStrings
import TestSelection.Proofs.JsonTokens
import TestSelection.Proofs.JsonTexts
import TestSelection.Proofs.ConfigFiles
import TestSelection.Proofs.OneShot
import TestSelection.Proofs.Words
import TestSelection.Proofs.Conversation
import TestSelection.Proofs.WordLines
import TestSelection.Proofs.IdLists
import TestSelection.Proofs.ScriptCalls
import TestSelection.Proofs.ScriptErrors
import TestSelection.Proofs.Alike
import TestSelection.Proofs.Spacing
import TestSelection.Proofs.WhiteSpace
import TestSelection.Proofs.Decoding
import TestSelection.Proofs.JsonSelections
import TestSelection.Proofs.ErrorPlaces
import TestSelection.Proofs.Copying
import TestSelection.Proofs.PresetLines
import TestSelection.Proofs.Escaping
import TestSelection.Proofs.Descent
