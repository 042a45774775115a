import Protograph.Schema.History
import Protograph.Main
import Protograph.Proofs.Proto.BreadthFirst
import Protograph.Proofs.Proto.Expressible
import Protograph.Proofs.Proto.References
import Protograph.Proofs.Proto.ReadBack
import Protograph.Proofs.Sdl.Loading
import Protograph.Proofs.Sdl.Acceptance
import Protograph.Proofs.Sdl.Reordering
import Protograph.Proofs.Proto.NamedPart
import Protograph.Proofs.Proto.Worklist
import Protograph.Proofs.Proto.Log
import Protograph.Proofs.Proto.Interning
import Protograph.Proofs.Sdl.Written
import Protograph.Proofs.Sdl.Extending
import Protograph.Proofs.Proto.Beginnings
import Protograph.Proofs.Sdl.Growth
import Protograph.Proofs.Sdl.Tokens
import Protograph.Proofs.Cli.Delivery
import Protograph.Proofs.Sdl.Insertion
import Protograph.Proofs.Proto.Nullable
import Protograph.Proofs.Sdl.Names
import Protograph.Proofs.Cli.Listing
import Protograph.Proofs.Cli.Words
import Protograph.Proofs.Cli.CommandLine
import Protograph.Proofs.Cli.Precedence
