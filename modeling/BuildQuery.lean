import BuildQuery.Decimal.Shortest
import BuildQuery.Filter.Grammar
import BuildQuery.Filter.Meaning
import BuildQuery.Text.Quoted
import BuildQuery.Build.Fields
import BuildQuery.Fetch.Pool
import BuildQuery.Report.Line
import BuildQuery.Main
import BuildQuery.Proofs.Arrivals
import BuildQuery.Proofs.Sequencing
import BuildQuery.Proofs.Polling
import BuildQuery.Proofs.PoolAccount
import BuildQuery.Proofs.PoolRuns
import BuildQuery.Proofs.PoolCounts
import BuildQuery.Proofs.Losses
import BuildQuery.Proofs.Cancelling
import BuildQuery.Proofs.Tokens
import BuildQuery.Proofs.Chains
import BuildQuery.Proofs.Judging
import BuildQuery.Proofs.Pipeline
import BuildQuery.Proofs.BuildsOutput
import BuildQuery.Proofs.Encoding
import BuildQuery.Proofs.Grouping
import BuildQuery.Proofs.FirstMisfit
import BuildQuery.Proofs.Writing
import BuildQuery.Proofs.WrittenLexemes
import BuildQuery.Proofs.WrittenValues
import BuildQuery.Proofs.BuildText
import BuildQuery.Proofs.FileChanges
import BuildQuery.Proofs.TomlLines
import BuildQuery.Proofs.StoredSettings
import BuildQuery.Proofs.TomlNumbers
import BuildQuery.Proofs.Addresses
import BuildQuery.Proofs.SettingChanges
import BuildQuery.Proofs.ChangedFiles
import BuildQuery.Proofs.CurrentUser
import BuildQuery.Proofs.CanonicalText
import BuildQuery.Proofs.StrayCharacters
import BuildQuery.Proofs.SplicedItems
import BuildQuery.Proofs.ForeignActions
import BuildQuery.Proofs.Duality
import BuildQuery.Proofs.VisibleParameters
import BuildQuery.Proofs.RearrangedRecords
import BuildQuery.Proofs.KeptTexts
import BuildQuery.Proofs.OrderOfNeeds
import BuildQuery.Proofs.TableColumns
import BuildQuery.Proofs.LineBreaks
import BuildQuery.Proofs.Colours
import BuildQuery.Proofs.JobAddresses
import BuildQuery.Proofs.Authorization
import BuildQuery.Proofs.ChosenJobs
