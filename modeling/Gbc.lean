import Gbc.Market.Postings
import Gbc.Market.Deletion
import Gbc.Market.Filter
import Gbc.Market.Picture
import Gbc.Market.RoundTrip
import Gbc.Account.Registration
import Gbc.Account.ReadBack
import Gbc.Session.Identity
import Gbc.Account.Unwraps
import Gbc.Account.Pictures
import Gbc.Information.Detail
import Gbc.Home.News
import Gbc.Account.Profiled
import Gbc.Session.Admin
import Gbc.Currency.Conversion
import Gbc.Account.Listeners
import Gbc.Home.LastImage
import Gbc.Market.Durability
import Gbc.Information.Items
import Gbc.Session.Credentials
import Gbc.Home.Downloads
import Gbc.Account.Ownership
import Gbc.Market.Conclusion
import Gbc.Account.Conclusion
import Gbc.Session.Reset
import Gbc.Market.Crashes
import Gbc.Account.Crashes
import Gbc.Currency.Tables
