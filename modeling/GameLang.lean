import GameLang.Main
import GameLang.Proofs.Dump
import GameLang.Proofs.Earliest
import GameLang.Proofs.Height
import GameLang.Proofs.Json.Tree
import GameLang.Proofs.Lexing.Resume
import GameLang.Proofs.Lexing.Scanner
import GameLang.Proofs.Lexing.Spacing
import GameLang.Proofs.Lexing.Spelling
import GameLang.Proofs.Lookahead.Prefix
import GameLang.Proofs.Outline.Coverage
import GameLang.Proofs.Outline.Program
import GameLang.Proofs.Printing.Indentation
import GameLang.Proofs.Printing.Lined
import GameLang.Proofs.Reading
import GameLang.Proofs.Recast.Kinds
import GameLang.Proofs.RoundTrip
import GameLang.Proofs.Session.Reuse
import GameLang.Proofs.Snippet.Marker
import GameLang.Proofs.Structure
