import SqlScript.Split.Script
import SqlScript.Unicode.Blank
import SqlScript.Proofs.Block.Balance
import SqlScript.Proofs.Block.Clamp
import SqlScript.Proofs.Block.Clause
import SqlScript.Proofs.Dialect.Objects
import SqlScript.Proofs.Locator.Bytes
import SqlScript.Proofs.Locator.Checked
import SqlScript.Proofs.Split.Begun
import SqlScript.Proofs.Split.Checked
import SqlScript.Proofs.Split.Coarse
import SqlScript.Proofs.Split.Concat
import SqlScript.Proofs.Split.Gist
import SqlScript.Proofs.Split.Layout
import SqlScript.Proofs.Split.Log
import SqlScript.Proofs.Split.Metadata
import SqlScript.Proofs.Split.Objects
import SqlScript.Proofs.Split.Parts
import SqlScript.Proofs.Split.Problems
import SqlScript.Proofs.Split.Recase
import SqlScript.Proofs.Split.Rejoin
import SqlScript.Proofs.Split.Resume
import SqlScript.Proofs.Token.Classify
import SqlScript.Proofs.Token.Resolve
