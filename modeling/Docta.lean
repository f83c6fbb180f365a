import Docta.Library.Fallible
import Docta.Library.Transition
import Docta.Library.Table
import Docta.Library.Text
import Docta.Contract.Json
import Docta.Contract.Uuid
import Docta.Contract.TutorContract
import Docta.Contract.WebContract
import Docta.Contract.Decoding
import Docta.Contract.Mirror
import Docta.Contract.Unicode
import Docta.Contract.Parity
import Docta.Contract.Rendering
import Docta.Store.Models
import Docta.Store.ConversationModels
import Docta.Rag.Draft
import Docta.Rag.Validator
import Docta.Conversation.Service
import Docta.Conversation.StateMachine
import Docta.Conversation.Runtime
import Docta.Conversation.Turns
import Docta.Conversation.Generation
import Docta.Conversation.Citations
import Docta.Ingestion.Jobs
import Docta.Ingestion.Documents
import Docta.Ingestion.Worker
import Docta.Ingestion.System
import Docta.Ingestion.Effects
import Docta.Ingestion.Coherence
import Docta.Ingestion.Transactions
import Docta.Ingestion.Invariants
import Docta.Ingestion.Fencing
import Docta.Ingestion.Delivery
import Docta.Ingestion.Envelopes
import Docta.Ingestion.Relays
import Docta.Ingestion.Confirmation
import Docta.Library.Cutting
import Docta.Library.Paging
import Docta.Ingestion.DocumentParser
import Docta.Rag.QuoteRepair
import Docta.Rag.Retrieval
import Docta.World.System
import Docta.World.Publication
import Docta.Conversation.Expiry
import Docta.World.Acceptance
import Docta.Conversation.Antecedents
import Docta.World.Antecedents
import Docta.World.History
import Docta.Library.Program
import Docta.Dev.Iam
import Docta.Dev.Provisioner
import Docta.Dev.Provisioning
import Docta.Rag.Lexemes
import Docta.Library.Budget
import Docta.World.Window
import Docta.Rag.Idempotence
import Docta.Rag.DraftSize
import Docta.Library.Ranking
import Docta.Rag.DenseRetrieval
import Docta.Rag.RetrievalOrder
import Docta.Library.JsonText
import Docta.Rag.TutorHttp
import Docta.Library.Grouping
import Docta.Rag.LosslessDecoding
import Docta.Conversation.EventStream
import Docta.Library.Utf8Stream
import Docta.Library.Paragraphs
import Docta.Conversation.Sse
import Docta.Library.Sha256
import Docta.Library.Fields
import Docta.Rag.EmbeddingVersion
import Docta.Library.Literals
import Docta.Contract.OpenUi
import Docta.Library.Chains
import Docta.Contract.LinearSequence
import Docta.Library.Quoted
import Docta.Dev.Profile
import Docta.Dev.ProfileReading
import Docta.Dev.Environment
import Docta.Library.Batching
import Docta.Rag.EmbeddingHttp
import Docta.Rag.EmbeddingAnswers
import Docta.Ingestion.Embedding
import Docta.Courses.CourseService
import Docta.Courses.Creation
import Docta.Courses.Idempotence
import Docta.Courses.KeyedCreation
import Docta.Library.Files
import Docta.Dev.LegacyImport
import Docta.Dev.LegacyCopy
import Docta.Dev.LegacyPublication
import Docta.Dev.LegacySafety
import Docta.Dev.LegacyCompletion
import Docta.World.TutorPanel
import Docta.World.Recovery
import Docta.World.ActionRecovery
import Docta.Library.Lockstep
import Docta.World.Tenancy
import Docta.World.Admission
import Docta.World.Noninterference
