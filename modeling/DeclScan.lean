import DeclScan.Keyword
import DeclScan.Text.Position
import DeclScan.Lexeme.Reading
import DeclScan.Session
import DeclScan.Pattern.Matches
import DeclScan.Proofs.DeclaratorList
import DeclScan.Proofs.Independence
import DeclScan.Proofs.RoundTrip
import DeclScan.Proofs.Identity
import DeclScan.Proofs.Anchor
import DeclScan.Proofs.Terminator
import DeclScan.Proofs.Initializer
import DeclScan.Proofs.History
import DeclScan.Proofs.Truncation
import DeclScan.Proofs.Lookahead
import DeclScan.Proofs.Cursor
import DeclScan.Proofs.Progress
import DeclScan.Proofs.Fault
import DeclScan.Proofs.CurlyGroup
import DeclScan.Proofs.NestedGroups
import DeclScan.Proofs.Parameters
import DeclScan.Proofs.TypeReference
import DeclScan.Proofs.TagContents
import DeclScan.Proofs.BrokenLiteral
import DeclScan.Proofs.AngleGroup
import DeclScan.Proofs.StrayCloser
import DeclScan.Proofs.NestedPointer
import DeclScan.Proofs.LineSearch
import DeclScan.Proofs.ClosingPlace
import DeclScan.Proofs.NestedOrder
