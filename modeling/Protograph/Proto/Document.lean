import Protograph.Proto.Emission
import Protograph.Proto.Options
import Protograph.Proto.Block

/-! # Documents — the whole definition file for a schema

    A document is the header and the blocks of the emission list, with an
    empty line between two blocks.  Blocks are made in order and the first
    that can not be made is the end, so a document is whole or not there. -/

namespace Protograph

/-- The blocks for some ids, in order; each is reported as it is made. -/
def Graph.blocks (g : Graph) : List TypeId → Traced TranslateError (List Block)
  | [] => pure []
  | id :: ids => do
      let block ← Traced.ofExcept (g.block id)
      Traced.report block.event
      let rest ← g.blocks ids
      return block :: rest

/-- The text of a document. -/
def Options.document (o : Options) (blocks : List Block) : String :=
  o.header ++ "\n\n".intercalate (blocks.map (Block.render o.messageIdPrefix))

/-- The document for a schema, with everything reported on the way. -/
def Graph.translate (g : Graph) (o : Options) : Traced TranslateError String := do
  let ids ← g.walk
  let blocks ← g.blocks ids
  let text := o.document blocks
  Traced.report (.translated g.rootName ids.length text.utf8ByteSize)
  return text

end Protograph
