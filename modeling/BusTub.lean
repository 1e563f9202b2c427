import BusTub.Buffer.ReplacerPolicy
import BusTub.Buffer.PoolClients
import BusTub.Buffer.PoolTable
import BusTub.Concurrency.Ownership
import BusTub.Concurrency.Rollback
import BusTub.Catalog.RootRecords
import BusTub.Catalog.Instance
import BusTub.Planner.BooleanTrees
import BusTub.Planner.CommonTables
import BusTub.Common.BustubInstance
import BusTub.Execution.ArithmeticTrees
import BusTub.Type.ExactCast
import BusTub.Buffer.ReplacerCapacity
import BusTub.Optimizer.RewriteForJoin
import BusTub.Planner.AggregateCalls
import BusTub.Planner.PlanInsert
import BusTub.Storage.HeaderMap
import BusTub.Primer.TrieThreads
import BusTub.Storage.LeafSplit
import BusTub.Common.StringUtil
import BusTub.Type.Timestamp
import BusTub.Storage.TreeSearch
import BusTub.Storage.DiskManager
import BusTub.Storage.TreePins
import BusTub.Catalog.CatalogMaps
import BusTub.Optimizer.Optimize
