import UEServer.Account.Created
import UEServer.Agent.Shutdown
import UEServer.Arena.Bijection
import UEServer.Arena.Persist
import UEServer.Arena.Record
import UEServer.BadWord.Filter
import UEServer.BinUtils.Int32
import UEServer.CSFunction.Refresh
import UEServer.CheckIn.Exact
import UEServer.Child.Conserved
import UEServer.Child.Exclusive
import UEServer.Child.Pages
import UEServer.Cluster.AddrMgr
import UEServer.Cluster.Dispatch
import UEServer.Cluster.RolePack
import UEServer.Cluster.Session
import UEServer.CoLock.Manager
import UEServer.CoLock.Protected
import UEServer.CoQueue.Basic
import UEServer.CoQueue.Sequence
import UEServer.Dynasty.Capacity
import UEServer.Dynasty.Godfather
import UEServer.Dynasty.Members
import UEServer.DynastyChallenge.Periods
import UEServer.DynastyCompete.Bookkeeping
import UEServer.DynastyCompete.Rewards
import UEServer.ExcelData.Exact
import UEServer.Fight.Anger
import UEServer.Fight.HitPoints
import UEServer.FightReward.Once
import UEServer.GiftKey.Limit
import UEServer.GiftPackage.Limit
import UEServer.GlobalMail.Once
import UEServer.GlobalVariables.Random
import UEServer.GlobalVariables.Table
import UEServer.Hero.Formation
import UEServer.Hero.Wear
import UEServer.Hunt.Kill
import UEServer.Migration.Declared
import UEServer.MonthlyCard.Conserved
import UEServer.MysqlDb.Clients
import UEServer.MysqlDb.Insert
import UEServer.MysqlDb.Isolation
import UEServer.OfflineCmd.Queue
import UEServer.OfflineDb.Coherent
import UEServer.OfflineDb.SaveAll
import UEServer.Party.Lifecycle
import UEServer.PayOrder.Encrypt
import UEServer.PayOrder.Once
import UEServer.Rank.Lists
import UEServer.RechargeDraw.Addition
import UEServer.Recovery.Offline
import UEServer.RoleBase.Level
import UEServer.RoleDb.Calls
import UEServer.RoleDb.NotLost
import UEServer.RoleMail.Once
import UEServer.RoleName.Unique
import UEServer.RushActivity.Exact
import UEServer.Salon.Contest
import UEServer.Schema.Count
import UEServer.Schema.ReadDb
import UEServer.Shop.Limits
import UEServer.ShopRefresh.Basic
import UEServer.Stage.Production
import UEServer.TableExtend.Traverse
import UEServer.Timer.Punctual
import UEServer.Train.Runs
import UEServer.Traitor.LifeCycle
import UEServer.Traitor.Once
import UEServer.Traitor.Positions
import UEServer.Uuid.Distinct
