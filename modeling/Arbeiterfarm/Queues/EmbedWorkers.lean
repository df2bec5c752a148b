import Arbeiterfarm.Queues.Processors

/-!
# The workers of the embedding queue

A worker claims the items that it has listed, reads the chunks of each, and embeds them in batches
from the offset in its copy of the row. A batch is stored in one transaction, and only then is the
progress of the item updated. The embedding backend is the same throughout, and so is the file of
an item's chunks.
-/

namespace Arbeiterfarm.Queues

open Foundation

/-! ### Embeddings -/

/-- The bits of a single-precision number. -/
abbrev F32 := UInt32

structure EmbeddingRow where
  project_id : Uuid
  artifact_id : Option Uuid
  label : String
  content : String
  model : String
  dimensions : ℕ
  embedding : List F32
  metadata : Json

/-- The columns of the unique index, in which null values are not distinct. -/
def EmbeddingRow.key (r : EmbeddingRow) : Uuid × Option Uuid × String × String :=
  (r.project_id, r.artifact_id, r.label, r.model)

abbrev EmbeddingTable := Table EmbeddingRow.key

/-- The columns that a conflicting insert sets. -/
def EmbeddingRow.setExcluded (excluded r : EmbeddingRow) : EmbeddingRow :=
  { r with
    content := excluded.content
    embedding := excluded.embedding
    metadata := excluded.metadata }

def insertEmbedding (row : EmbeddingRow) : EmbeddingTable → EmbeddingTable :=
  Table.upsert row row.setExcluded fun _ => rfl

/-! ### Chunks -/

structure Chunk where
  index : ℕ
  offset : ℕ
  length : ℕ
  text : String
  label : String
  deriving DecidableEq, Repr

structure EmbeddingBackend where
  name : String
  dimensions : ℕ

/-- What stays the same: the backend, and the chunks in the file of an artifact, if it has any. -/
structure EmbedConfig where
  backend : EmbeddingBackend
  chunksOf : Uuid → Option (List Chunk)

abbrev EmbedRow := QueueRow EmbedData

def EMBED_BATCH_SIZE : ℕ := 100

def embedMetadata (item : EmbedRow) : Json :=
  .obj [("source", .str "embed_queue"), ("tool", .str item.data.tool_name)]

def embeddingRow (backend : EmbeddingBackend) (item : EmbedRow) (chunk : Chunk)
    (embedding : List F32) : EmbeddingRow where
  project_id := item.project_id
  artifact_id := item.data.source_artifact_id
  label := chunk.label
  content := chunk.text
  model := backend.name
  dimensions := backend.dimensions
  embedding := embedding
  metadata := embedMetadata item

/-- The inserts of one transaction. -/
def insertBatch (backend : EmbeddingBackend) (item : EmbedRow) (batch : List Chunk)
    (embeddings : List (List F32)) (t : EmbeddingTable) : EmbeddingTable :=
  (batch.zip embeddings).foldl
    (fun t p => insertEmbedding (embeddingRow backend item p.1 p.2) t) t

/-- The dimensions are validated on the first embedding of the first batch. -/
def checkEmbeddings (backend : EmbeddingBackend) (item : EmbedRow) (embedded_so_far : ℕ)
    (batch : List Chunk) (embeddings : List (List F32)) : Except String Unit :=
  if embeddings.length ≠ batch.length then
    .error s!"expected {batch.length} embeddings, got {embeddings.length}"
  else if embedded_so_far = item.data.chunks_embedded then
    match embeddings.head? with
    | some first =>
      if first.length ≠ backend.dimensions then
        .error s!"embedding model returned {first.length} dimensions, expected {backend.dimensions}"
      else .ok ()
    | none => .ok ()
  else .ok ()

/-! ### The system -/

/-- Where a worker stands with an item that it has claimed. -/
inductive EmbedTask where
  | loading
  | starting (chunks : List Chunk)
  | embedding (remaining : List Chunk) (embedded_so_far : ℕ)
  /-- A batch is stored, and the progress is to be updated. -/
  | recording (remaining : List Chunk) (embedded_so_far : ℕ)
  | completing
  | failing (msg : String)

/-- Workers go through copies of the rows, as they were when they were listed. -/
inductive EmbedPhase where
  | idle
  | claiming (due : List EmbedRow)
  | processing (item : EmbedRow) (task : EmbedTask) (due : List EmbedRow)

structure EmbedState where
  now : ℤ
  rows : QueueTable EmbedData
  embeddings : EmbeddingTable
  workers : WorkerId → EmbedPhase

inductive EmbedAction where
  | clock (d : ℕ)
  | enqueue (id project_id : Uuid) (data : EmbedData)
  | cancel (id : Uuid) (e : Execution)
  | retry (id : Uuid) (e : Execution)
  | recoverStale (e : Execution)
  /-- The embedding tools insert as well. -/
  | insertEmbedding (row : EmbeddingRow) (e : Execution)
  | list (k : WorkerId)
  | claim (k : WorkerId) (e : Execution)
  | load (k : WorkerId) (failure : Option String)
  | progress (k : WorkerId) (e : Execution) (msg : String)
  | batch (k : WorkerId) (response : Except String (List (List F32))) (e : Execution)
    (msg : String)
  | complete (k : WorkerId) (e : Execution)
  | fail (k : WorkerId) (e : Execution)
  | crash (k : WorkerId)

namespace EmbedState

def init : EmbedState := ⟨0, Table.empty _, Table.empty _, fun _ => .idle⟩

def setWorker (s : EmbedState) (k : WorkerId) (phase : EmbedPhase) : EmbedState :=
  { s with workers := Function.update s.workers k phase }

/-- The rows after a statement that would leave `rows`. -/
def execute (s : EmbedState) (e : Execution) (rows : QueueTable EmbedData) : EmbedState :=
  { s with rows := e.apply s.rows rows }

/-- The rest of a pass after a statement. -/
def rest (e : Execution) (due : List EmbedRow) : EmbedPhase :=
  if e = .answered then .claiming due else .idle

/-- What follows when `embedded_so_far` has been recorded. -/
def nextTask (remaining : List Chunk) (embedded_so_far : ℕ) : EmbedTask :=
  if remaining = [] then .completing else .embedding remaining embedded_so_far

/-- An item is failed with the error of a statement. -/
def orFailing (e : Execution) (msg : String) (task : EmbedTask) : EmbedTask :=
  if e = .answered then task else .failing msg

def claimItem (s : EmbedState) (k : WorkerId) (e : Execution) : Option EmbedState :=
  match s.workers k with
  | .claiming (item :: due) =>
    let (claimed, rows) := claim s.now item.id s.rows
    some ((s.execute e rows).setWorker k
      (if e = .answered ∧ claimed then .processing item .loading due else rest e due))
  | _ => none

/-- An error of any of the reads fails the item; otherwise there are chunks. -/
def load (cfg : EmbedConfig) (s : EmbedState) (k : WorkerId) (failure : Option String) :
    Option EmbedState :=
  match s.workers k with
  | .processing item .loading due =>
    match failure, cfg.chunksOf item.data.chunks_artifact_id with
    | some msg, _ => some (s.setWorker k (.processing item (.failing msg) due))
    | none, some chunks => some (s.setWorker k (.processing item (.starting chunks) due))
    | none, none => none
  | _ => none

def progress (s : EmbedState) (k : WorkerId) (e : Execution) (msg : String) :
    Option EmbedState :=
  match s.workers k with
  | .processing item (.starting chunks) due =>
    let skip := item.data.chunks_embedded
    let set := embedProgress (skip, some chunks.length)
    some ((s.execute e (updateProgress s.now set item.id s.rows)).setWorker k
      (.processing item (orFailing e msg (nextTask (chunks.drop skip) skip)) due))
  | .processing item (.recording remaining embedded_so_far) due =>
    let set := embedProgress (embedded_so_far, none)
    some ((s.execute e (updateProgress s.now set item.id s.rows)).setWorker k
      (.processing item (orFailing e msg (nextTask remaining embedded_so_far)) due))
  | _ => none

/-- Embed one batch of what remains and store it. -/
def embedBatch (cfg : EmbedConfig) (s : EmbedState) (k : WorkerId)
    (response : Except String (List (List F32))) (e : Execution) (msg : String) :
    Option EmbedState :=
  match s.workers k with
  | .processing item (.embedding remaining embedded_so_far) due =>
    let batch := remaining.take EMBED_BATCH_SIZE
    match response with
    | .error err =>
      some (s.setWorker k (.processing item (.failing s!"embedding failed: {err}") due))
    | .ok embeddings =>
      match checkEmbeddings cfg.backend item embedded_so_far batch embeddings with
      | .error err => some (s.setWorker k (.processing item (.failing err) due))
      | .ok () =>
        let stored := insertBatch cfg.backend item batch embeddings s.embeddings
        some ({ s with embeddings := e.apply s.embeddings stored }.setWorker k
          (.processing item (orFailing e msg (.recording (remaining.drop EMBED_BATCH_SIZE)
            (embedded_so_far + batch.length))) due))
  | _ => none

/-- One statement or decision of one party. -/
def step (cfg : EmbedConfig) (s : EmbedState) : EmbedAction → Option EmbedState
  | .clock d => some { s with now := s.now + d }
  | .enqueue id project_id data =>
    (Queues.enqueue embedQueue.conflicts s.now id project_id
      { data with chunk_count := none, chunks_embedded := 0 } s.rows).map fun rows =>
        { s with rows := rows }
  | .cancel id e => some (s.execute e (Queues.cancel s.now id s.rows).2)
  | .retry id e =>
    (Queues.retry embedQueue.conflicts s.now id s.rows).map fun r => s.execute e r.2
  | .recoverStale e => some (s.execute e (Queues.recoverStale s.now staleProcessingMinutes s.rows))
  | .insertEmbedding row e =>
    some { s with embeddings := e.apply s.embeddings (Queues.insertEmbedding row s.embeddings) }
  | .list k =>
    match s.workers k with
    | .idle | .claiming [] =>
      some (s.setWorker k (.claiming (listPending embedQueue.batchSize s.rows)))
    | _ => none
  | .claim k e => s.claimItem k e
  | .load k failure => s.load cfg k failure
  | .progress k e msg => s.progress k e msg
  | .batch k response e msg => s.embedBatch cfg k response e msg
  | .complete k e =>
    match s.workers k with
    | .processing item .completing due =>
      some ((s.execute e (Queues.complete s.now id item.id s.rows).2).setWorker k (rest e due))
    | _ => none
  | .fail k e =>
    match s.workers k with
    | .processing item (.failing msg) due =>
      some ((s.execute e (Queues.fail s.now msg item.id s.rows).2).setWorker k (rest e due))
    | _ => none
  | .crash k => some (s.setWorker k .idle)

end EmbedState

end Arbeiterfarm.Queues
