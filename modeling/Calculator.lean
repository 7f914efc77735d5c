import Calculator.Arithmetic
import Calculator.Balanced
import Calculator.CommandLine
import Calculator.CommandLine.Options
import Calculator.Conversation
import Calculator.Decimal
import Calculator.Environment
import Calculator.Error
import Calculator.Expr
import Calculator.Expr.Grammar
import Calculator.Main
import Calculator.Operator
import Calculator.Printed
import Calculator.Proofs.Alphabet
import Calculator.Proofs.Arrangement
import Calculator.Proofs.Assignments
import Calculator.Proofs.Blanks
import Calculator.Proofs.BoundNames
import Calculator.Proofs.Departures
import Calculator.Proofs.EncodedLines
import Calculator.Proofs.Faults
import Calculator.Proofs.Feeding
import Calculator.Proofs.Groups
import Calculator.Proofs.Independence
import Calculator.Proofs.LastValue
import Calculator.Proofs.Layout
import Calculator.Proofs.LineEffects
import Calculator.Proofs.Listings
import Calculator.Proofs.LongestMatch
import Calculator.Proofs.MergedSigns
import Calculator.Proofs.MissingParts
import Calculator.Proofs.NameRuns
import Calculator.Proofs.Numerals
import Calculator.Proofs.OneStack
import Calculator.Proofs.Operands
import Calculator.Proofs.Pieces
import Calculator.Proofs.Questions
import Calculator.Proofs.ReadBack
import Calculator.Proofs.Readings
import Calculator.Proofs.Recollection
import Calculator.Proofs.Renaming
import Calculator.Proofs.RoundTrip
import Calculator.Proofs.Sentences
import Calculator.Proofs.SignNormalForm
import Calculator.Proofs.SignParity
import Calculator.Proofs.SignRuns
import Calculator.Proofs.Spelling
import Calculator.Proofs.Stages
import Calculator.Proofs.Substitution
import Calculator.Proofs.Surroundings
import Calculator.Proofs.Transcripts
import Calculator.Proofs.WrittenForms
import Calculator.ReversePolish.Machine
import Calculator.ReversePolish.Yard
import Calculator.Script
import Calculator.Session
import Calculator.Session.History
import Calculator.Sign
import Calculator.Statement
import Calculator.Statement.Footprint
import Calculator.Text.Basic
import Calculator.Text.Lines
import Calculator.Text.Run
import Calculator.Text.Utf8
import Calculator.Token.Basic
import Calculator.Token.Canonical
import Calculator.Token.Lexer
