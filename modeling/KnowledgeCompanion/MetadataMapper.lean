import KnowledgeCompanion.ReadThroughCache
import KnowledgeCompanion.StoreSearch

/-! Search hits as nodes of the index package and back to retrieved chunks
(`services/llamaindex/metadata_mapper.py`). -/

namespace KnowledgeCompanion.MetadataMapper

open BaseChunker StoreSearch ReadThroughCache

inductive NodeValue (K : Type)
  | stored (v : MetaValue)
  | score (s : K)

abbrev NodeMetadata (K : Type) := Entries String (NodeValue K)

/-- `str` of a value that is no text, and `float` of a stored value, `none` where it
raises. -/
structure Conversions (K : Type) where
  str : NodeValue K → Text
  float : MetaValue → Option K

structure NodeClass (K Node : Type) where
  textNode : (id text : Text) → (extraInfo : NodeMetadata K) → Node
  nodeID : Node → Text
  metadata : Node → NodeMetadata K
  getContent : Node → Text

structure NodeChunk (K : Type) where
  chunkID : Text
  resourceID : Text
  text : Text
  score : K
  metadata : NodeMetadata K

variable {K Node : Type}

def fill (target source : String) (metadata : NodeMetadata K) : NodeMetadata K :=
  match lookup target metadata, lookup source metadata with
  | none, some v => assign target v metadata
  | _, _ => metadata

def normalizeMetadata (metadata : NodeMetadata K) : NodeMetadata K :=
  fill "end_sec" "timestamp_end" <| fill "start_sec" "timestamp_start" <|
    fill "timestamp_end" "end_sec" <| fill "timestamp_start" "start_sec" <|
      fill "source_type" "resource_type" <| fill "resource_type" "source_type" <|
        fill "chunk_id" "id" metadata

def metadataWithRequiredFields (metadata : Metadata) (chunkID resourceID userID : Text) :
    NodeMetadata K :=
  let normalized := normalizeMetadata (metadata.map fun entry => (entry.1, .stored entry.2))
  assign "user_id" (.stored (.text userID)) <|
    assign "resource_id" (.stored (.text resourceID)) <|
      assign "chunk_id" (.stored (.text chunkID)) normalized

theorem lookup_fill {key : String} {v : NodeValue K} {metadata : NodeMetadata K}
    (known : lookup key metadata = some v) (target source : String) :
    lookup key (fill target source metadata) = some v := by
  unfold fill
  split
  · rename_i missing _
    have other : target ≠ key := by
      intro same
      rw [same, known] at missing
      exact Option.some_ne_none v missing
    rw [lookup_assign, if_neg other, known]
  · exact known

theorem lookup_normalizeMetadata {key : String} {v : NodeValue K} {metadata : NodeMetadata K}
    (known : lookup key metadata = some v) : lookup key (normalizeMetadata metadata) = some v := by
  unfold normalizeMetadata
  iterate 7 apply lookup_fill
  exact known

variable [Zero K]

section Values

variable [DecidableEq K]

def NodeValue.truthy : NodeValue K → Bool
  | .stored (.int n) => n ≠ 0
  | .stored (.text t) => t ≠ []
  | .stored (.time t) => t ≠ 0
  | .stored (.flag b) => b
  | .score s => s ≠ 0

def strOr (conv : Conversions K) (value : Option (NodeValue K)) (default : Text) : Text :=
  match value with
  | some v =>
    if v.truthy then
      match v with
      | .stored (.text t) => t
      | v => conv.str v
    else default
  | none => default

theorem strOr_text (conv : Conversions K) (t default : Text) :
    strOr conv (some (.stored (.text t))) default = if t = [] then default else t := by
  by_cases empty : t = []
  · simp [strOr, NodeValue.truthy, empty]
  · simp [strOr, NodeValue.truthy, empty]

end Values

def resolveScore (conv : Conversions K) (metadata : NodeMetadata K) : K :=
  match lookup "score" metadata with
  | none => 0
  | some (.score s) => s
  | some (.stored v) => if v = .text [] then 0 else (conv.float v).getD 0

omit [Zero K] in
def vectorSearchResultToNode (cls : NodeClass K Node) (hit : SearchHit K) : Node :=
  cls.textNode hit.id hit.text (assign "score" (.score hit.score)
    (metadataWithRequiredFields hit.metadata hit.id hit.resourceID hit.userID))

def nodeToRetrievalChunk [DecidableEq K] (cls : NodeClass K Node) (conv : Conversions K)
    (node : Node) : NodeChunk K :=
  let metadata := normalizeMetadata (cls.metadata node)
  { chunkID := strOr conv (lookup "chunk_id" metadata) (cls.nodeID node)
    resourceID := strOr conv (lookup "resource_id" metadata) []
    text := cls.getContent node
    score := resolveScore conv metadata
    metadata }

/-- A node gives back the text and the metadata that it was made of, and has no other id
when it was given the empty one. -/
structure Faithful (cls : NodeClass K Node) : Prop where
  content : ∀ id text info, cls.getContent (cls.textNode id text info) = text
  metadata : ∀ id text info, cls.metadata (cls.textNode id text info) = info
  unnamed : ∀ text info, cls.nodeID (cls.textNode [] text info) = []

end KnowledgeCompanion.MetadataMapper
