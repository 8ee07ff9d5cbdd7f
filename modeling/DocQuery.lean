import DocQuery.Backend.Basic
import DocQuery.Backend.Log
import DocQuery.Backend.Script
import DocQuery.Bindings
import DocQuery.Database
import DocQuery.Dictionary
import DocQuery.Double.Basic
import DocQuery.Double.Rounding
import DocQuery.Double.Shortest
import DocQuery.Error.Basic
import DocQuery.Error.Failure
import DocQuery.Filter.Basic
import DocQuery.Filter.Condition
import DocQuery.Filter.Json
import DocQuery.Instant.Basic
import DocQuery.Instant.Calendar
import DocQuery.Instant.Timestamp
import DocQuery.Json.Basic
import DocQuery.Json.Numeral
import DocQuery.Json.Reader
import DocQuery.Proofs.ActionErrors
import DocQuery.Proofs.Agreement
import DocQuery.Proofs.BatchCreation
import DocQuery.Proofs.Declaration
import DocQuery.Proofs.DeclarationOrder
import DocQuery.Proofs.DeclaredTypes
import DocQuery.Proofs.DefinitionText
import DocQuery.Proofs.Deployment
import DocQuery.Proofs.DeploymentPrefix
import DocQuery.Proofs.Emission
import DocQuery.Proofs.ErrorContext
import DocQuery.Proofs.FieldReading
import DocQuery.Proofs.FilterEquality
import DocQuery.Proofs.FilterGrammar
import DocQuery.Proofs.FilterMeaning
import DocQuery.Proofs.FilterText
import DocQuery.Proofs.Formula
import DocQuery.Proofs.JsonAcceptance
import DocQuery.Proofs.JsonConversion
import DocQuery.Proofs.JsonNames
import DocQuery.Proofs.LiteralReading
import DocQuery.Proofs.LocalErrors
import DocQuery.Proofs.Losslessness
import DocQuery.Proofs.NameReading
import DocQuery.Proofs.Numbering
import DocQuery.Proofs.Placeholders
import DocQuery.Proofs.Pruning
import DocQuery.Proofs.QueryAcceptance
import DocQuery.Proofs.QueryReading
import DocQuery.Proofs.RecordIdText
import DocQuery.Proofs.Registration
import DocQuery.Proofs.Scan
import DocQuery.Proofs.SchemaBuilding
import DocQuery.Proofs.ScriptedRuns
import DocQuery.Proofs.SingleStatement
import DocQuery.Proofs.StatementText
import DocQuery.Proofs.TimestampText
import DocQuery.Proofs.TypeMeaning
import DocQuery.Proofs.TypeReading
import DocQuery.Proofs.UniqueReading
import DocQuery.Proofs.ValueEquality
import DocQuery.Proofs.ValueIndependence
import DocQuery.Query
import DocQuery.RecordId
import DocQuery.Schema.Basic
import DocQuery.Schema.Expression
import DocQuery.Schema.Field
import DocQuery.Schema.Table
import DocQuery.Schema.Validation
import DocQuery.Statement.Basic
import DocQuery.Statement.Compiled
import DocQuery.Statement.FieldDefinition
import DocQuery.Statement.Literal
import DocQuery.Statement.Parameters
import DocQuery.Statement.Piece
import DocQuery.Statement.TypeClause
import DocQuery.Text.Draft
import DocQuery.Text.Integer
import DocQuery.Text.Quoted
import DocQuery.Text.Search
import DocQuery.Value.Basic
import DocQuery.Value.Json
