import SeisFeed.Channel.Directory
import SeisFeed.Session.Fault
/-!
# Selecting channels

Clients work with the time-series channels that a request's patterns match. There must be one at
least.
-/

namespace SeisFeed.Session

def timeSeries (directory : Directory) : Directory :=
  directory.filterByType DataType.timeseries.code

/-- The time-series channels of a directory that patterns match. -/
def selectChannels (directory : Directory) (patterns network : String) :
    Except SessionFault Directory :=
  match (timeSeries directory).subset patterns network with
  | .error fault => .error (.config fault.message)
  | .ok selected =>
    if selected.channels = [] then
      .error (.config s!"no channel matches {Text.quoted patterns}")
    else .ok selected

end SeisFeed.Session
