import SqlComposer.Statement.Write
import SqlComposer.Finder
import SqlComposer.Schema.Migration
import SqlComposer.Schema.Catalog
import SqlComposer.Schema.Snapshot
import SqlComposer.DataSource
import SqlComposer.Decimal.Reader
import SqlComposer.OrderedMap.Lemmas
import SqlComposer.Proofs.OrderedMap
import SqlComposer.Proofs.Table
import SqlComposer.Proofs.TableDiff
import SqlComposer.Proofs.SchemaDiff
import SqlComposer.Proofs.PrimaryKey
import SqlComposer.Proofs.Json
import SqlComposer.Proofs.Memory
import SqlComposer.Proofs.Token
import SqlComposer.Proofs.Formula
import SqlComposer.Proofs.ConditionPieces
import SqlComposer.Proofs.ConditionMeaning
import SqlComposer.Proofs.TokenBoundary
import SqlComposer.Proofs.Names
import SqlComposer.Proofs.FieldKey
import SqlComposer.Proofs.Fragment
import SqlComposer.Proofs.SolidTokens
import SqlComposer.Proofs.AssociationTie
import SqlComposer.Proofs.DeferredIds
import SqlComposer.Proofs.PieceTokens
import SqlComposer.Proofs.ConditionTexts
import SqlComposer.Proofs.StringLiterals
import SqlComposer.Proofs.QuotedNames
import SqlComposer.Proofs.ReadPlan
import SqlComposer.Proofs.ColumnDefinition
import SqlComposer.Proofs.Unaliased
import SqlComposer.Proofs.TableDefinition
import SqlComposer.Proofs.CatalogRows
import SqlComposer.Proofs.LiteralTokens
import SqlComposer.Proofs.ValueLiterals
import SqlComposer.Proofs.QuotedFragment
import SqlComposer.Proofs.Membership
import SqlComposer.Proofs.Negation
import SqlComposer.Proofs.Placeholder
import SqlComposer.Proofs.SplitTopLevel
import SqlComposer.Proofs.UniformQuotes
import SqlComposer.Proofs.QuotedPath
import SqlComposer.Proofs.BlankTexts
import SqlComposer.Proofs.BlankMembers
import SqlComposer.Proofs.VirtualNames
import SqlComposer.Proofs.VirtualClauses
import SqlComposer.Proofs.SelectedFields
import SqlComposer.Proofs.FieldRequests
import SqlComposer.Proofs.StatementTemplate
import SqlComposer.Proofs.JoinTable
import SqlComposer.Proofs.OrderKeys
import SqlComposer.Proofs.BrokenAssociations
import SqlComposer.Proofs.Nullability
import SqlComposer.Proofs.OwnerReferences
import SqlComposer.Proofs.Lookups
import SqlComposer.Proofs.LinkAlias
import SqlComposer.Proofs.IndexRows
import SqlComposer.Proofs.AlikeSchemas
import SqlComposer.Proofs.FilteredMigration
import SqlComposer.Proofs.DropOrder
import SqlComposer.Proofs.MemoRuns
import SqlComposer.Proofs.KeyCuts
import SqlComposer.Proofs.SmallWords
import SqlComposer.Proofs.FinderNames
import SqlComposer.Proofs.NativeTypes
import SqlComposer.Proofs.NumeralPatterns
import SqlComposer.Proofs.ParenthesisPairs
import SqlComposer.Proofs.OrderWorklist
import SqlComposer.Proofs.Merging
