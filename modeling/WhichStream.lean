import WhichStream.Firebase.Profiles
import WhichStream.Firebase.Wire
import WhichStream.AttemptHistory
import WhichStream.Facebook.Outcomes
import WhichStream.Facebook.TokenLaunches
import WhichStream.Firebase.Progress
import WhichStream.Firebase.AppSession
import WhichStream.Firebase.CurrentUser
import WhichStream.HistoryTable
import WhichStream.NavigationStack
import WhichStream.ScreenRuns
import WhichStream.ScreenWidgets
