import XorqDatafusion.Transition
import XorqDatafusion.Execution
import XorqDatafusion.RecordBatch
import XorqDatafusion.Bridge.Parked
import XorqDatafusion.Bridge.Threads
import XorqDatafusion.Bridge.Affinity
import XorqDatafusion.Bridge.Nested
import XorqDatafusion.Bridge.Reclaim
import XorqDatafusion.Bridge.Buffered
import XorqDatafusion.Reentry.Completion
import XorqDatafusion.Filter.Ibis
import XorqDatafusion.Filter.PyArrow
import XorqDatafusion.Udaf
import XorqDatafusion.Udwf
import XorqDatafusion.Udf
import XorqDatafusion.Rex
import XorqDatafusion.Sql.Parser
import XorqDatafusion.Provider.Columns
import XorqDatafusion.Provider.ArrowStream
import XorqDatafusion.Provider.Pushdown
import XorqDatafusion.Provider.Dataset
import XorqDatafusion.Provider.Query
import XorqDatafusion.Context.Listing
import XorqDatafusion.Context.SortOrder
import XorqDatafusion.Recovery
import XorqDatafusion.Ffi.TaskContext
import XorqDatafusion.Ffi.Codec
import XorqDatafusion.Bridge.Iterator
import XorqDatafusion.Bridge.Turns
import XorqDatafusion.Context.Isolation
import XorqDatafusion.Context.Settings
