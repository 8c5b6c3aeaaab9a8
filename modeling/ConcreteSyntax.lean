import ConcreteSyntax.Options.Load
import ConcreteSyntax.Source
import ConcreteSyntax.Proofs.Errors
import ConcreteSyntax.Proofs.SExpression
import ConcreteSyntax.Proofs.Shown
import ConcreteSyntax.Proofs.Traversal
import ConcreteSyntax.Proofs.LeafTexts
import ConcreteSyntax.Proofs.Lossless
import ConcreteSyntax.Proofs.Lenience
import ConcreteSyntax.Proofs.UnclosedParameters
import ConcreteSyntax.Proofs.Expression.Declaration
import ConcreteSyntax.Proofs.Excerpt.Expression
import ConcreteSyntax.Proofs.Token.Tiling
import ConcreteSyntax.Proofs.Faults
import ConcreteSyntax.Proofs.WithoutComments
import ConcreteSyntax.Proofs.Heads
import ConcreteSyntax.Proofs.Speculation
import ConcreteSyntax.Proofs.LetChain
import ConcreteSyntax.Proofs.MacroCalls
import ConcreteSyntax.Proofs.Closures
import ConcreteSyntax.Proofs.Rereading
import ConcreteSyntax.Proofs.Token.RawString
import ConcreteSyntax.Proofs.Token.StringEnd
import ConcreteSyntax.Proofs.Token.NestedComment
import ConcreteSyntax.Proofs.Token.Character
import ConcreteSyntax.Proofs.Token.Numeral
import ConcreteSyntax.Proofs.Token.Admission
import ConcreteSyntax.Proofs.Token.LineBreak
import ConcreteSyntax.Proofs.Token.Locality
import ConcreteSyntax.Proofs.TokenTree.Completeness
