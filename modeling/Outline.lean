import Outline.EditScript
import Outline.Json.Document
import Outline.Main
import Outline.Program
import Outline.Proofs.Accounting
import Outline.Proofs.Agreement
import Outline.Proofs.Arrangement
import Outline.Proofs.AtomRows
import Outline.Proofs.BrokenChains
import Outline.Proofs.Calls
import Outline.Proofs.Confinement
import Outline.Proofs.Convergence
import Outline.Proofs.Depths
import Outline.Proofs.Determination
import Outline.Proofs.DocumentForms
import Outline.Proofs.DocumentParts
import Outline.Proofs.Drawing
import Outline.Proofs.EditWalks
import Outline.Proofs.Effects
import Outline.Proofs.Finding
import Outline.Proofs.Folders
import Outline.Proofs.LimitedSearches
import Outline.Proofs.ListEdits
import Outline.Proofs.Matching
import Outline.Proofs.MatchingRows
import Outline.Proofs.Migration
import Outline.Proofs.Neighbours
import Outline.Proofs.NestedNotes
import Outline.Proofs.NotesReadBack
import Outline.Proofs.OneLevel
import Outline.Proofs.OwnAtoms
import Outline.Proofs.Owners
import Outline.Proofs.Places
import Outline.Proofs.PlainLists
import Outline.Proofs.Positions
import Outline.Proofs.PrintedNotes
import Outline.Proofs.Properties
import Outline.Proofs.PropertyMatches
import Outline.Proofs.QueryConjunctions
import Outline.Proofs.QueryGrammar
import Outline.Proofs.QuotedWords
import Outline.Proofs.Reading
import Outline.Proofs.Refusals
import Outline.Proofs.Reindexing
import Outline.Proofs.Relinking
import Outline.Proofs.Settling
import Outline.Proofs.SharedTails
import Outline.Proofs.ShortestScripts
import Outline.Proofs.SilentUpdates
import Outline.Proofs.Splicing
import Outline.Proofs.Spreading
import Outline.Proofs.TextIndex
import Outline.Proofs.Transactions
import Outline.Proofs.Trimming
import Outline.Proofs.Walks
import Outline.Proofs.WellFormed
import Outline.Proofs.WordConjunctions
import Outline.Proofs.Windows
import Outline.Proofs.WrittenNotes
import Outline.Store.Archive
import Outline.Store.Overwrite
