import Npupnp.Gena.Basic
import Npupnp.Gena.Notify
import Npupnp.Gena.Propertyset
import Npupnp.Gena.Machine
import Npupnp.Gena.Locks
import Npupnp.Gena.Race
import Npupnp.Gena.Unsubscribe
import Npupnp.Gena.Unregister
import Npupnp.Gena.Sequential
import Npupnp.Gena.Timers
import Npupnp.Gena.AutoRenew
import Npupnp.Gena.Receive
import Npupnp.Uri.Parse
import Npupnp.Gena.Callback
import Npupnp.Uri.Escape
import Npupnp.Uri.Resolve
import Npupnp.Uri.Dots
import Npupnp.Pool.Machine
import Npupnp.Pool.Accounting
import Npupnp.Pool.Queues
import Npupnp.Pool.Jobs
import Npupnp.Pool.Bump
import Npupnp.Pool.AddWorker
import Npupnp.Pool.WorkerStarts
import Npupnp.Pool.Lifecycle
import Npupnp.Pool.Shutdown
